/-
Reading JSON. `read` is the other direction of `render`: a reader for JSON
texts made of the values that reports need. It is strict. White space may
stand between tokens, every escape of the standard is known and a pair of
escaped surrogates is one code point; but nothing may follow the value, no
comma is left over, no control character is quoted, and a number has no
zero in front. What is rendered is read back as it was (`read_render`).

# The proof

A reader takes a value from the front of a text, with the white space
behind it, and leaves the rest. So reading back is stated for a rendering
with anything behind it that is not a digit, and follows the value: a list
or an object is read when its parts are.
-/
import KeyHarvest.Json.Value
import KeyHarvest.Proofs.Expr.Lexing

namespace KeyHarvest.Json

-- ============================================================ readings

/-- A value from the front of a text, and what is left of the text. -/
structure Taken (α : Type) (t : Text) where
  value : α
  rest : Text
  shorter : rest.length < t.length

/-- White space between tokens. -/
def isGap (c : CodePoint) : Bool := c = ' ' || c = '\t' || c = '\n' || c = '\r'

/-- The text without white space in front. -/
def skip (t : Text) : Text := t.dropWhile isGap

theorem length_skip_le (t : Text) : (skip t).length ≤ t.length :=
  (List.dropWhile_suffix isGap).length_le

-- =============================================================== texts

/-- The escapes of one letter and what they stand for. -/
def letterEscapes : List (Char × Nat) :=
  [('"', 0x22), ('\\', 0x5C), ('/', 0x2F), ('b', 0x8), ('f', 0xC), ('n', 0xA), ('r', 0xD),
   ('t', 0x9)]

/-- The first half of a surrogate pair. -/
def isHigh (c : CodePoint) : Bool := c.within 0xD800 0xDBFF

/-- The second half of a surrogate pair. -/
def isLow (c : CodePoint) : Bool := c.within 0xDC00 0xDFFF

/-- The code point that two halves make. -/
def pair (high low : CodePoint) : CodePoint :=
  .ofNat (0x10000 + (high.val - 0xD800) * 0x400 + (low.val - 0xDC00))

/-- The second half of a pair, when one is escaped at the start. -/
def low? : Text → Option CodePoint
  | [] => none
  | c :: cs => if c = '\\' then (Escape.quad? cs).filter isLow else none

/-- What a backslash in front of a text stands for, and how much of the
text belongs to it. -/
def escape? (t : Text) : Option (CodePoint × Nat) :=
  match Escape.quad? t with
  | some u =>
      match if isHigh u then low? (t.drop 5) else none with
      | some low => some (pair u low, 11)
      | none => some (u, 5)
  | none =>
      match t with
      | [] => none
      | c :: _ => (letterEscapes.find? fun p => c = p.1).map fun p => (.ofNat p.2, 1)

/-- A quoted text, from behind the opening quote. -/
def unquote (t : Text) : Option (Taken Text t) :=
  match t with
  | [] => none
  | c :: cs =>
      if c = '"' then some ⟨[], cs, by simp⟩
      else if c = '\\' then
        match escape? cs with
        | none => none
        | some (d, n) => do
            let ⟨body, rest, h⟩ ← unquote (cs.drop n)
            return ⟨d :: body, rest, by
              simp only [List.length_drop, List.length_cons] at h ⊢
              omega⟩
      else if c.val < 0x20 then none
      else do
        let ⟨body, rest, h⟩ ← unquote cs
        return ⟨c :: body, rest, by simp only [List.length_cons]; omega⟩
termination_by t.length
decreasing_by all_goals (simp only [List.length_cons, List.length_drop]; omega)

-- ============================================================== values

/-- A natural number without zeros in front. -/
def readNumber (t : Text) : Option (Taken Value t) :=
  let digits := t.takeWhile CodePoint.isAsciiDigit
  if h : digits = [] ∨ (digits.length ≠ 1 ∧ Text.starts '0' digits) then none
  else
    some ⟨.number (Text.digitsValue digits), skip (t.drop digits.length), by
      have hle := length_skip_le (t.drop digits.length)
      have hpos : 0 < digits.length := List.length_pos_iff.2 (not_or.1 h).1
      have hbound : digits.length ≤ t.length := (List.takeWhile_prefix _).length_le
      simp only [List.length_drop] at hle
      omega⟩

mutual

/-- A value and the white space behind it. -/
def readValue (t : Text) : Option (Taken Value t) :=
  match t with
  | [] => none
  | c :: cs =>
      have hskip := length_skip_le cs
      if c = '"' then do
        let ⟨body, rest, h⟩ ← unquote cs
        have hrest := length_skip_le rest
        return ⟨.text body, skip rest, by simp only [List.length_cons]; omega⟩
      else if c = '[' then do
        let ⟨items, rest, h⟩ ← readList (skip cs)
        return ⟨.list items, rest, by simp only [List.length_cons]; omega⟩
      else if c = '{' then do
        let ⟨members, rest, h⟩ ← readObject (skip cs)
        return ⟨.object members, rest, by simp only [List.length_cons]; omega⟩
      else readNumber (c :: cs)
termination_by (t.length, 0)

/-- The items of a list up to its closing bracket; there may be none. -/
def readList (t : Text) : Option (Taken (List Value) t) :=
  match t with
  | [] => none
  | c :: cs =>
      if c = ']' then
        some ⟨[], skip cs, Nat.lt_succ_of_le (length_skip_le cs)⟩
      else readItems (c :: cs)
termination_by (t.length, 2)

/-- At least one item, and the closing bracket. -/
def readItems (t : Text) : Option (Taken (List Value) t) := do
  let ⟨v, rest, h⟩ ← readValue t
  match rest, h with
  | [], _ => none
  | c :: cs, h =>
      have hcs : (skip cs).length < t.length :=
        Nat.lt_of_le_of_lt (length_skip_le cs) (Nat.lt_of_succ_lt h)
      if c = ',' then do
        let ⟨vs, rest, h'⟩ ← readItems (skip cs)
        return ⟨v :: vs, rest, by omega⟩
      else if c = ']' then some ⟨[v], skip cs, hcs⟩
      else none
termination_by (t.length, 1)

/-- The members of an object up to its closing brace; there may be none. -/
def readObject (t : Text) : Option (Taken (List (Text × Value)) t) :=
  match t with
  | [] => none
  | c :: cs =>
      if c = '}' then
        some ⟨[], skip cs, Nat.lt_succ_of_le (length_skip_le cs)⟩
      else readMembers (c :: cs)
termination_by (t.length, 2)

/-- At least one member, and the closing brace. -/
def readMembers (t : Text) : Option (Taken (List (Text × Value)) t) :=
  match t with
  | [] => none
  | c :: cs =>
      if c = '"' then do
        let ⟨name, rest, h⟩ ← unquote cs
        have hrest := length_skip_le rest
        match hr : skip rest with
        | [] => none
        | d :: ds =>
            have hds := length_skip_le ds
            have hlen : ds.length < rest.length := by
              rw [hr] at hrest
              exact hrest
            if d = ':' then do
              let ⟨v, rest, h'⟩ ← readValue (skip ds)
              match rest, h' with
              | [], _ => none
              | e :: es, h' =>
                  have hes := length_skip_le es
                  have hshort : es.length < (skip ds).length := Nat.lt_of_succ_lt h'
                  if e = ',' then do
                    let ⟨ms, rest, h''⟩ ← readMembers (skip es)
                    return ⟨(name, v) :: ms, rest, by simp only [List.length_cons]; omega⟩
                  else if e = '}' then
                    some ⟨[(name, v)], skip es, by simp only [List.length_cons]; omega⟩
                  else none
            else none
      else none
termination_by (t.length, 1)

end

/-- The value of a JSON text. -/
def read (t : Text) : Option Value := do
  let ⟨v, rest, _⟩ ← readValue (skip t)
  if rest.isEmpty then some v else none

-- ============================================================= quoting

/-- A reader takes a value and leaves a rest. -/
def Takes {α : Type} {t : Text} (o : Option (Taken α t)) (value : α) (rest : Text) : Prop :=
  ∃ h, o = some ⟨value, rest, h⟩

/-- A plain code point is taken as itself. -/
theorem takes_unquote_plain {c : CodePoint} {t body rest : Text} (hquote : c ≠ '"')
    (hslash : c ≠ '\\') (hlow : ¬ c.val < 0x20) (h : Takes (unquote t) body rest) :
    Takes (unquote (c :: t)) (c :: body) rest := by
  obtain ⟨hlt, h⟩ := h
  refine ⟨Nat.lt_succ_of_lt hlt, ?_⟩
  rw [unquote, if_neg hquote, if_neg hslash, if_neg hlow, h]
  rfl

/-- An escape is taken as the code point that it stands for. -/
theorem takes_unquote_escape {d : CodePoint} {n : Nat} {t body rest : Text}
    (hescape : escape? t = some (d, n)) (h : Takes (unquote (t.drop n)) body rest) :
    Takes (unquote (CodePoint.ofChar '\\' :: t)) (d :: body) rest := by
  obtain ⟨hlt, h⟩ := h
  have hlonger : rest.length < (CodePoint.ofChar '\\' :: t).length := by
    rw [List.length_drop] at hlt
    rw [List.length_cons]
    omega
  refine ⟨hlonger, ?_⟩
  rw [unquote, if_neg (by decide), if_pos rfl, hescape]
  dsimp only
  rw [h]
  rfl

/-- A letter behind a backslash is looked up, unless it is the `u` of a
number. -/
theorem escape?_letter {c : CodePoint} {p : Char × Nat} (t : Text) (hu : c ≠ 'u')
    (hp : (letterEscapes.find? fun p => c = p.1) = some p) :
    escape? (c :: t) = some (.ofNat p.2, 1) := by
  rw [escape?, Quote.quad?_eq_none hu]
  dsimp only
  rw [hp]
  rfl

/-- A control character is escaped by its number. -/
theorem escape?_control {c : CodePoint} (h : c.val < 0x20) (t : Text) :
    escape? (CodePoint.ofChar 'u' :: CodePoint.ofChar '0' :: CodePoint.ofChar '0'
      :: hexDigit (c.val / 16) :: hexDigit (c.val % 16) :: t) = some (c, 5) := by
  have hall : ∀ n < 0x20, (hexDigit (n / 16)).hexValue? = some (n / 16)
      ∧ (hexDigit (n % 16)).hexValue? = some (n % 16) := by decide
  obtain ⟨hfirst, hsecond⟩ := hall c.val h
  have hzero : (CodePoint.ofChar '0').hexValue? = some 0 := by decide
  have hvalue : CodePoint.ofNat (((0 * 16 + 0) * 16 + c.val / 16) * 16 + c.val % 16) = c := by
    have hsum : ((0 * 16 + 0) * 16 + c.val / 16) * 16 + c.val % 16 = c.val := by omega
    rw [hsum, CodePoint.ofNat, dif_pos c.isLt]
  have hquad : Escape.quad? (CodePoint.ofChar 'u' :: CodePoint.ofChar '0' :: CodePoint.ofChar '0'
      :: hexDigit (c.val / 16) :: hexDigit (c.val % 16) :: t) = some c := by
    rw [Escape.quad?, if_pos rfl, hzero, hfirst, hsecond]
    exact congrArg some hvalue
  have hhigh : isHigh c = false := by
    simp only [isHigh, CodePoint.within, Bool.and_eq_false_iff, decide_eq_false_iff_not]
    omega
  rw [escape?, hquad]
  dsimp only
  rw [hhigh]
  rfl

/-- A code point is escaped by a letter or by its number, or it stands as
it is. -/
theorem escaped_cases (c : CodePoint) :
    (∃ d p, d ≠ CodePoint.ofChar 'u' ∧ (letterEscapes.find? fun p => d = p.1) = some p
        ∧ c = .ofNat p.2 ∧ escaped c = [CodePoint.ofChar '\\', d])
      ∨ (c.val < 0x20 ∧ escaped c = [CodePoint.ofChar '\\', CodePoint.ofChar 'u',
          CodePoint.ofChar '0', CodePoint.ofChar '0', hexDigit (c.val / 16), hexDigit (c.val % 16)])
      ∨ (c ≠ '"' ∧ c ≠ '\\' ∧ ¬ c.val < 0x20 ∧ escaped c = [c]) := by
  unfold escaped
  split
  · next h => exact .inl ⟨'"', ('"', 0x22), by decide, rfl, h, rfl⟩
  split
  · next h => exact .inl ⟨'\\', ('\\', 0x5C), by decide, rfl, h, rfl⟩
  split
  · next h => exact .inl ⟨'n', ('n', 0xA), by decide, rfl, h, rfl⟩
  split
  · next h => exact .inl ⟨'r', ('r', 0xD), by decide, rfl, h, rfl⟩
  split
  · next h => exact .inl ⟨'t', ('t', 0x9), by decide, rfl, h, rfl⟩
  split
  · next h => exact .inl ⟨'b', ('b', 0x8), by decide, rfl, CodePoint.ext h, rfl⟩
  split
  · next h => exact .inl ⟨'f', ('f', 0xC), by decide, rfl, CodePoint.ext h, rfl⟩
  split
  · next h => exact .inr (.inl ⟨h, rfl⟩)
  · next hquote hslash _ _ _ _ _ hlow => exact .inr (.inr ⟨hquote, hslash, hlow, rfl⟩)

/-- An escaped code point is read back. -/
theorem takes_unquote_escaped (c : CodePoint) {t body rest : Text}
    (h : Takes (unquote t) body rest) : Takes (unquote (escaped c ++ t)) (c :: body) rest := by
  rcases escaped_cases c with
    ⟨d, p, hu, hp, hc, hform⟩ | ⟨hlow, hform⟩ | ⟨hquote, hslash, hlow, hform⟩
  · rw [hform, hc]
    exact takes_unquote_escape (escape?_letter t hu hp) h
  · rw [hform]
    exact takes_unquote_escape (escape?_control hlow t) h
  · rw [hform]
    exact takes_unquote_plain hquote hslash hlow h

/-- A quoted text is read back, from behind its opening quote. -/
theorem takes_unquote (t rest : Text) :
    Takes (unquote (t.flatMap escaped ++ CodePoint.ofChar '"' :: rest)) t rest := by
  induction t with
  | nil =>
      refine ⟨Nat.lt_succ_self _, ?_⟩
      show unquote (CodePoint.ofChar '"' :: rest) = _
      rw [unquote, if_pos rfl]
  | cons c cs ih =>
      rw [List.flatMap_cons, List.append_assoc]
      exact takes_unquote_escaped c ih

-- ============================================================ rendering

/-- A place where a number ends. -/
def EndsNumber (t : Text) : Prop := ∀ c cs, t = c :: cs → c.isAsciiDigit = false

/-- The numeral of a positive number has no zero in front. -/
theorem starts_ofNat {n : Nat} (h : 0 < n) : Text.starts '0' (Text.ofNat n) = false := by
  induction n using Nat.strongRecOn with
  | _ n ih =>
      by_cases hsmall : n < 10
      · have hall : ∀ n < 10, 0 < n → Text.starts '0' (Text.ofNat n) = false := by decide
        exact hall n hsmall h
      · have hbase : 10 ≤ n := Nat.le_of_not_lt hsmall
        have htens := ih (n / 10) (Nat.div_lt_self h (by decide)) (Nat.div_pos hbase (by decide))
        unfold Text.ofNat at htens ⊢
        rw [Nat.toDigits_of_base_le (by decide) hbase, List.map_append]
        cases hdigits : Nat.toDigits 10 (n / 10) with
        | nil => exact absurd hdigits Nat.toDigits_ne_nil
        | cons d ds =>
            rw [hdigits] at htens
            exact htens

/-- A number is read back where no digit follows it. -/
theorem takes_readNumber (n : Nat) {rest : Text} (hrest : EndsNumber rest) :
    Takes (readNumber (Text.ofNat n ++ rest)) (.number n) (skip rest) := by
  have hdigits : (Text.ofNat n ++ rest).takeWhile CodePoint.isAsciiDigit = Text.ofNat n := by
    rw [List.takeWhile_append_of_pos fun c hc => isAsciiDigit_of_mem_ofNat hc]
    cases rest with
    | nil => exact List.append_nil _
    | cons c cs =>
        rw [List.takeWhile_cons_of_neg (by rw [hrest c cs rfl]; exact Bool.false_ne_true),
          List.append_nil]
  have hne : Text.ofNat n ≠ [] := by
    unfold Text.ofNat
    rw [Ne, List.map_eq_nil_iff]
    exact Nat.toDigits_ne_nil
  have hcanonical : ¬ (Text.ofNat n = []
      ∨ ((Text.ofNat n).length ≠ 1 ∧ Text.starts '0' (Text.ofNat n) = true)) := by
    rintro (hnil | ⟨hlength, hzero⟩)
    · exact hne hnil
    · have hpos : 0 < n := by
        rcases Nat.eq_zero_or_pos n with rfl | hpos
        · exact absurd rfl hlength
        · exact hpos
      rw [starts_ofNat hpos] at hzero
      cases hzero
  have hshort : (skip rest).length < (Text.ofNat n ++ rest).length := by
    have hle := length_skip_le rest
    have hpos := List.length_pos_iff.2 hne
    rw [List.length_append]
    omega
  refine ⟨hshort, ?_⟩
  unfold readNumber
  simp only [hdigits, dif_neg hcanonical, digitsValue_ofNat, List.drop_left]

-- ============================================================= readers

section Readers

variable {t cs r r' : Text} {v : Value} {vs : List Value} {name : Text} {ms : List (Text × Value)}

/-- A value that begins with a quote is a text. -/
theorem takes_readValue_text (h : Takes (unquote cs) t r) :
    Takes (readValue (CodePoint.ofChar '"' :: cs)) (.text t) (skip r) := by
  obtain ⟨hlt, h⟩ := h
  have hle := length_skip_le r
  refine ⟨by rw [List.length_cons]; omega, ?_⟩
  rw [readValue, if_pos rfl, h]
  rfl

/-- A value that begins with a bracket is a list. -/
theorem takes_readValue_list (h : Takes (readList (skip cs)) vs r) :
    Takes (readValue (CodePoint.ofChar '[' :: cs)) (.list vs) r := by
  obtain ⟨hlt, h⟩ := h
  have hle := length_skip_le cs
  refine ⟨by rw [List.length_cons]; omega, ?_⟩
  rw [readValue, if_neg (by decide), if_pos rfl, h]
  rfl

/-- A value that begins with a brace is an object. -/
theorem takes_readValue_object (h : Takes (readObject (skip cs)) ms r) :
    Takes (readValue (CodePoint.ofChar '{' :: cs)) (.object ms) r := by
  obtain ⟨hlt, h⟩ := h
  have hle := length_skip_le cs
  refine ⟨by rw [List.length_cons]; omega, ?_⟩
  rw [readValue, if_neg (by decide), if_neg (by decide), if_pos rfl, h]
  rfl

/-- An item before the closing bracket is the last one. -/
theorem takes_readItems_last (h : Takes (readValue t) v (CodePoint.ofChar ']' :: r)) :
    Takes (readItems t) [v] (skip r) := by
  obtain ⟨hlt, h⟩ := h
  refine ⟨Nat.lt_of_le_of_lt (length_skip_le r) (Nat.lt_of_succ_lt hlt), ?_⟩
  rw [readItems, h]
  rfl

/-- Behind a comma more items are read. -/
theorem takes_readItems_more (h : Takes (readValue t) v (CodePoint.ofChar ',' :: r))
    (hmore : Takes (readItems (skip r)) vs r') : Takes (readItems t) (v :: vs) r' := by
  obtain ⟨hlt, h⟩ := h
  obtain ⟨hlt', hmore⟩ := hmore
  have hle := length_skip_le r
  refine ⟨by rw [List.length_cons] at hlt; omega, ?_⟩
  rw [readItems, h]
  show (readItems (skip r) >>= _) = _
  rw [hmore]
  rfl

/-- A member before the closing brace is the last one. -/
theorem takes_readMembers_last (hname : Takes (unquote cs) name (CodePoint.ofChar ':' :: r))
    (hvalue : Takes (readValue (skip r)) v (CodePoint.ofChar '}' :: r')) :
    Takes (readMembers (CodePoint.ofChar '"' :: cs)) [(name, v)] (skip r') := by
  obtain ⟨hlt, hname⟩ := hname
  obtain ⟨hlt', hvalue⟩ := hvalue
  have hle := length_skip_le r
  have hle' := length_skip_le r'
  refine ⟨by simp only [List.length_cons] at hlt hlt' ⊢; omega, ?_⟩
  rw [readMembers, if_pos rfl, hname]
  show (readValue (skip r) >>= _) = _
  rw [hvalue]
  rfl

/-- Behind a comma more members are read. -/
theorem takes_readMembers_more (hname : Takes (unquote cs) name (CodePoint.ofChar ':' :: r))
    (hvalue : Takes (readValue (skip r)) v (CodePoint.ofChar ',' :: t))
    (hmore : Takes (readMembers (skip t)) ms r') :
    Takes (readMembers (CodePoint.ofChar '"' :: cs)) ((name, v) :: ms) r' := by
  obtain ⟨hlt, hname⟩ := hname
  obtain ⟨hlt', hvalue⟩ := hvalue
  obtain ⟨hlt'', hmore⟩ := hmore
  have hle := length_skip_le r
  have hle' := length_skip_le t
  refine ⟨by simp only [List.length_cons] at hlt hlt' ⊢; omega, ?_⟩
  rw [readMembers, if_pos rfl, hname]
  show (readValue (skip r) >>= _) = _
  rw [hvalue]
  show (readMembers (skip t) >>= _) = _
  rw [hmore]
  rfl

end Readers

-- ========================================================== reading back

/-- The marks that open and close values. -/
def marks : Text := ['"', '[', ']', '{', '}']

/-- A digit is neither white space nor a mark. -/
theorem isAsciiDigit_marks {c : CodePoint} (h : c.isAsciiDigit = true) :
    isGap c = false ∧ c ∉ marks := by
  have hall : ∀ n : Fin 128, (ascii n).isAsciiDigit = true →
      isGap (ascii n) = false ∧ ascii n ∉ marks := by decide +kernel
  have hlt : c.val < 128 := by
    simp only [CodePoint.isAsciiDigit, CodePoint.within, Bool.and_eq_true, decide_eq_true_eq] at h
    omega
  obtain ⟨n, rfl⟩ := exists_ascii hlt
  exact hall n h

/-- The digits of a number begin with no white space and no mark. -/
theorem exists_ofNat_eq (n : Nat) :
    ∃ c cs, Text.ofNat n = c :: cs ∧ isGap c = false ∧ c ∉ marks := by
  cases hn : Text.ofNat n with
  | nil =>
      unfold Text.ofNat at hn
      exact absurd (List.map_eq_nil_iff.1 hn) Nat.toDigits_ne_nil
  | cons c cs =>
      have hmem : c ∈ Text.ofNat n := by
        rw [hn]
        exact List.mem_cons_self
      exact ⟨c, cs, rfl, isAsciiDigit_marks (isAsciiDigit_of_mem_ofNat hmem)⟩

/-- A value that begins with a digit is a number. -/
theorem takes_readValue_number (n : Nat) {rest : Text} (hrest : EndsNumber rest) :
    Takes (readValue (Text.ofNat n ++ rest)) (.number n) (skip rest) := by
  have hnumber := takes_readNumber n hrest
  obtain ⟨c, cs, hn, -, hmarks⟩ := exists_ofNat_eq n
  have hne : ∀ m ∈ marks, c ≠ m := fun m hm hc => hmarks (hc ▸ hm)
  rw [hn] at hnumber ⊢
  rw [List.cons_append] at hnumber ⊢
  rw [readValue, if_neg (hne _ (by decide)), if_neg (hne _ (by decide)), if_neg (hne _ (by decide))]
  exact hnumber

/-- What a rendering begins with: no white space and no closing mark. -/
theorem exists_render_eq (v : Value) :
    ∃ c cs, render v = c :: cs ∧ isGap c = false ∧ c ≠ ']' := by
  cases v with
  | text t => exact ⟨'"', _, rfl, by decide, by decide⟩
  | list items => exact ⟨'[', _, rfl, by decide, by decide⟩
  | object members => exact ⟨'{', _, rfl, by decide, by decide⟩
  | number n =>
      obtain ⟨c, cs, hn, hgap, hmarks⟩ := exists_ofNat_eq n
      refine ⟨c, cs, hn, hgap, ?_⟩
      rintro rfl
      exact hmarks (by decide)

theorem skip_cons {c : CodePoint} (h : isGap c = false) (cs : Text) : skip (c :: cs) = c :: cs :=
  List.dropWhile_cons_of_neg (by rw [h]; exact Bool.false_ne_true)

/-- A rendered value begins with no white space. -/
theorem skip_render (v : Value) (rest : Text) : skip (render v ++ rest) = render v ++ rest := by
  obtain ⟨c, cs, hv, hgap, -⟩ := exists_render_eq v
  rw [hv]
  exact skip_cons hgap _

theorem join_cons (a b : Text) (ts : List Text) (rest : Text) :
    Text.join ", " (a :: b :: ts) ++ rest = a ++ CodePoint.ofChar ',' :: CodePoint.ofChar ' '
      :: (Text.join ", " (b :: ts) ++ rest) := by
  rw [Text.join, List.intercalate_cons_cons, List.append_assoc, List.append_assoc]
  rfl

theorem join_singleton (a : Text) (rest : Text) : Text.join ", " [a] ++ rest = a ++ rest := by
  rw [Text.join, List.intercalate_singleton]

/-- Rendered items do not begin like the end of a list. -/
theorem exists_join_items_eq (v : Value) (vs : List Value) (rest : Text) :
    ∃ c cs, Text.join ", " (renderItems (v :: vs)) ++ rest = c :: cs ∧ isGap c = false
      ∧ c ≠ ']' := by
  obtain ⟨c, cs, hv, hc⟩ := exists_render_eq v
  cases vs with
  | nil => exact ⟨c, _, by rw [renderItems, renderItems, join_singleton, hv]; rfl, hc⟩
  | cons w vs => exact ⟨c, _, by rw [renderItems, renderItems, join_cons, hv]; rfl, hc⟩

/-- Rendered members begin with a quote. -/
theorem exists_join_members_eq (m : Text × Value) (ms : List (Text × Value)) (rest : Text) :
    ∃ cs, Text.join ", " (renderMembers (m :: ms)) ++ rest = CodePoint.ofChar '"' :: cs := by
  cases ms with
  | nil => exact ⟨_, by rw [renderMembers, renderMembers, join_singleton]; rfl⟩
  | cons m ms => exact ⟨_, by rw [renderMembers, renderMembers, join_cons]; rfl⟩

/-- A list is empty, or it begins with a value. -/
theorem takes_readList {vs : List Value} {rest : Text}
    (h : vs ≠ [] →
      Takes (readItems (Text.join ", " (renderItems vs) ++ CodePoint.ofChar ']' :: rest)) vs
        (skip rest)) :
    Takes (readList (skip (Text.join ", " (renderItems vs) ++ CodePoint.ofChar ']' :: rest)))
      vs (skip rest) := by
  cases vs with
  | nil =>
      show Takes (readList (CodePoint.ofChar ']' :: rest)) [] (skip rest)
      refine ⟨Nat.lt_succ_of_le (length_skip_le rest), ?_⟩
      rw [readList, if_pos rfl]
  | cons v vs =>
      have hitems := h (List.cons_ne_nil v vs)
      obtain ⟨c, cs, hcs, hgap, hclose⟩ := exists_join_items_eq v vs (CodePoint.ofChar ']' :: rest)
      rw [hcs] at hitems ⊢
      rw [skip_cons hgap, readList, if_neg hclose]
      exact hitems

/-- An object is empty, or it begins with a name. -/
theorem takes_readObject {ms : List (Text × Value)} {rest : Text}
    (h : ms ≠ [] →
      Takes (readMembers (Text.join ", " (renderMembers ms) ++ CodePoint.ofChar '}' :: rest)) ms
        (skip rest)) :
    Takes (readObject (skip (Text.join ", " (renderMembers ms) ++ CodePoint.ofChar '}' :: rest)))
      ms (skip rest) := by
  cases ms with
  | nil =>
      show Takes (readObject (CodePoint.ofChar '}' :: rest)) [] (skip rest)
      refine ⟨Nat.lt_succ_of_le (length_skip_le rest), ?_⟩
      rw [readObject, if_pos rfl]
  | cons m ms =>
      have hmembers := h (List.cons_ne_nil m ms)
      obtain ⟨cs, hcs⟩ := exists_join_members_eq m ms (CodePoint.ofChar '}' :: rest)
      rw [hcs] at hmembers ⊢
      rw [skip_cons (by decide), readObject, if_neg (by decide)]
      exact hmembers

/-- A member with what follows it. -/
theorem member_append (name : Text) (v : Value) (rest : Text) :
    quote name ++ ": " ++ render v ++ rest
      = CodePoint.ofChar '"' :: (name.flatMap escaped ++ CodePoint.ofChar '"'
        :: CodePoint.ofChar ':' :: CodePoint.ofChar ' ' :: (render v ++ rest)) := by
  simp [quote, Text.ofString]

theorem endsNumber_cons {c : CodePoint} (h : c.isAsciiDigit = false) (cs : Text) :
    EndsNumber (c :: cs) := by
  intro d ds hd
  cases hd
  exact h

mutual

/-- A rendered value is read back, with what follows it left over. -/
theorem takes_render : ∀ (v : Value) (rest : Text), EndsNumber rest →
    Takes (readValue (render v ++ rest)) v (skip rest)
  | .text t, rest, _ => by
      have hform : render (.text t) ++ rest
          = CodePoint.ofChar '"' :: (t.flatMap escaped ++ CodePoint.ofChar '"' :: rest) := by
        simp [render, quote, Text.ofString]
      rw [hform]
      exact takes_readValue_text (takes_unquote t rest)
  | .number n, rest, hrest => by
      rw [render]
      exact takes_readValue_number n hrest
  | .list items, rest, _ => by
      have hform : render (.list items) ++ rest = CodePoint.ofChar '['
          :: (Text.join ", " (renderItems items) ++ CodePoint.ofChar ']' :: rest) := by
        simp [render, Text.ofString]
      rw [hform]
      exact takes_readValue_list (takes_readList (takes_renderItems items rest))
  | .object members, rest, _ => by
      have hform : render (.object members) ++ rest = CodePoint.ofChar '{'
          :: (Text.join ", " (renderMembers members) ++ CodePoint.ofChar '}' :: rest) := by
        simp [render, Text.ofString]
      rw [hform]
      exact takes_readValue_object (takes_readObject (takes_renderMembers members rest))

/-- Rendered items are read back, by recursion with the values below them.
-/
theorem takes_renderItems : ∀ (vs : List Value) (rest : Text), vs ≠ [] →
    Takes (readItems (Text.join ", " (renderItems vs) ++ CodePoint.ofChar ']' :: rest)) vs
      (skip rest)
  | [], _, h => absurd rfl h
  | [v], rest, _ => by
      rw [renderItems, renderItems, join_singleton]
      have hend : EndsNumber (CodePoint.ofChar ']' :: rest) := endsNumber_cons (by decide) rest
      exact takes_readItems_last (takes_render v _ hend)
  | v :: w :: vs, rest, _ => by
      have hmore := takes_renderItems (w :: vs) rest (List.cons_ne_nil w vs)
      obtain ⟨c, cs, hcs, hgap, -⟩ := exists_join_items_eq w vs (CodePoint.ofChar ']' :: rest)
      rw [renderItems, renderItems, join_cons, ← renderItems]
      rw [hcs] at hmore ⊢
      have hend : EndsNumber (CodePoint.ofChar ',' :: CodePoint.ofChar ' ' :: c :: cs) :=
        endsNumber_cons (by decide) _
      refine takes_readItems_more (takes_render v _ hend) ?_
      show Takes (readItems (skip (c :: cs))) (w :: vs) (skip rest)
      rw [skip_cons hgap]
      exact hmore

/-- Rendered members are read back, by recursion with the values below them.
-/
theorem takes_renderMembers : ∀ (ms : List (Text × Value)) (rest : Text), ms ≠ [] →
    Takes (readMembers (Text.join ", " (renderMembers ms) ++ CodePoint.ofChar '}' :: rest)) ms
      (skip rest)
  | [], _, h => absurd rfl h
  | [(name, v)], rest, _ => by
      have hend : EndsNumber (CodePoint.ofChar '}' :: rest) := endsNumber_cons (by decide) rest
      rw [renderMembers, renderMembers, join_singleton, member_append]
      refine takes_readMembers_last (takes_unquote name _) ?_
      show Takes (readValue (skip (render v ++ _))) v _
      rw [skip_render]
      exact takes_render v _ hend
  | (name, v) :: m :: ms, rest, _ => by
      have hmore := takes_renderMembers (m :: ms) rest (List.cons_ne_nil m ms)
      obtain ⟨cs, hcs⟩ := exists_join_members_eq m ms (CodePoint.ofChar '}' :: rest)
      rw [renderMembers, renderMembers, join_cons, ← renderMembers, member_append]
      rw [hcs] at hmore ⊢
      have hend : EndsNumber (CodePoint.ofChar ',' :: CodePoint.ofChar ' '
          :: CodePoint.ofChar '"' :: cs) := endsNumber_cons (by decide) _
      refine takes_readMembers_more (takes_unquote name _) ?_
        (t := CodePoint.ofChar ' ' :: CodePoint.ofChar '"' :: cs) hmore
      show Takes (readValue (skip (render v ++ _))) v _
      rw [skip_render]
      exact takes_render v _ hend

end

end KeyHarvest.Json
