/-
The scan of a text, from its start to its end or to where it stops. A scan
passes one blank or one token at a time and remembers where each token
began and ended (`Scan`). Whatever it has passed, the lexer has cut off
too, and goes on from the same place (`Scan.tokenize_eq`); and a scan can
go on until it is at the end of the text, at an integer of too many digits,
or stuck (`Scan.exists_end`). So the lexer succeeds on the texts that are
tokens and blanks without remainder (`Exact`), and the position of a
refusal is the first place where the scan can not go on.
-/
import KeyHarvest.Proofs.Expr.Enclosed
import KeyHarvest.Proofs.Expr.Pieces
import KeyHarvest.Text.Lines

namespace KeyHarvest

-- ============================================================= places

/-- A token and the position behind its last code point. -/
structure Placed where
  token : Token Text
  stop : Nat

/-- The tokens of a text one after the other from one position to another,
with blanks around them and nothing else. -/
def Tiles (t : Text) (start : Nat) : List Placed → Nat → Prop
  | [], stop => start ≤ stop ∧ Text.isBlank (Text.slice t start stop) = true
  | x :: xs, stop =>
      start ≤ x.token.position ∧ Text.isBlank (Text.slice t start x.token.position) = true
        ∧ x.token.position < x.stop ∧ Tiles t x.stop xs stop

/-- A text without remainder: blanks and tokens from its start to its end,
and each token is what stands at its place. -/
structure Exact (t : Text) (xs : List Placed) : Prop where
  tiles : Tiles t 0 xs t.length
  begins : ∀ x ∈ xs,
    x.token.kind.Begins (t.drop x.token.position) (Text.slice t x.token.position x.stop)

/-- What is passed of a text, blank by blank and token by token, up to a
position. -/
inductive Scan (t : Text) : List Placed → Nat → Prop where
  | start : Scan t [] 0
  | blank {xs : List Placed} {p : Nat} {c : CodePoint} {cs : Text} (h : Scan t xs p)
      (hdrop : t.drop p = c :: cs) (hc : c.isBlank = true) : Scan t xs (p + 1)
  | token {xs : List Placed} {p : Nat} {raw : Text} {k : TokenKind Text} (h : Scan t xs p)
      (hk : k.Begins (t.drop p) raw) : Scan t (xs ++ [⟨⟨k, p⟩, p + raw.length⟩]) (p + raw.length)

-- ============================================================== tiles

variable {t : Text}

theorem slice_self (p : Nat) : Text.slice t p p = [] := by
  rw [Text.slice, Nat.sub_self, List.take_zero]

theorem slice_succ {p q : Nat} (hle : p ≤ q) {c : CodePoint} {cs : Text}
    (hdrop : t.drop q = c :: cs) : Text.slice t p (q + 1) = Text.slice t p q ++ [c] := by
  rw [Text.slice, Text.slice, Nat.sub_add_comm hle, List.take_add, List.drop_drop,
    Nat.add_sub_cancel' hle, hdrop]
  rfl

/-- The raw text of a token is cut out between its positions. -/
theorem slice_of_isPrefix {p : Nat} {raw : Text} (h : raw <+: t.drop p) :
    Text.slice t p (p + raw.length) = raw := by
  rw [Text.slice, Nat.add_sub_cancel_left]
  exact (List.prefix_iff_eq_take.1 h).symm

namespace Tiles

/-- Tokens tile on over a blank. -/
theorem blank {xs : List Placed} {start stop : Nat} (h : Tiles t start xs stop) {c : CodePoint}
    {cs : Text} (hdrop : t.drop stop = c :: cs) (hc : c.isBlank = true) :
    Tiles t start xs (stop + 1) := by
  induction xs generalizing start with
  | nil =>
      obtain ⟨hle, hblank⟩ := h
      refine ⟨Nat.le_succ_of_le hle, ?_⟩
      rw [slice_succ hle hdrop, Text.isBlank, List.all_append]
      exact Bool.and_eq_true_iff.2 ⟨hblank, by simpa using hc⟩
  | cons x xs ih => exact ⟨h.1, h.2.1, h.2.2.1, ih h.2.2.2⟩

/-- Tokens tile on with one more token. -/
theorem token {xs : List Placed} {start stop : Nat} (h : Tiles t start xs stop)
    (k : TokenKind Text) {next : Nat} (hnext : stop < next) :
    Tiles t start (xs ++ [⟨⟨k, stop⟩, next⟩]) next := by
  induction xs generalizing start with
  | nil =>
      refine ⟨h.1, h.2, hnext, Nat.le_refl _, ?_⟩
      rw [slice_self]
      rfl
  | cons x xs ih => exact ⟨h.1, h.2.1, h.2.2.1, ih h.2.2.2⟩

/-- Tokens tile forward. -/
theorem le {xs : List Placed} {start stop : Nat} (h : Tiles t start xs stop) : start ≤ stop := by
  induction xs generalizing start with
  | nil => exact h.1
  | cons x xs ih => exact Nat.le_trans h.1 (Nat.le_trans (Nat.le_of_lt h.2.2.1) (ih h.2.2.2))

/-- Tokens that follow one another begin one behind the other. -/
theorem pairwise {xs : List Placed} {start stop : Nat} (h : Tiles t start xs stop) :
    (∀ x ∈ xs, start ≤ x.token.position)
      ∧ (xs.map fun x => x.token.position).Pairwise (· < ·) := by
  induction xs generalizing start with
  | nil => exact ⟨by simp, List.Pairwise.nil⟩
  | cons x xs ih =>
      obtain ⟨hfrom, hrest⟩ := ih h.2.2.2
      have hbehind : ∀ y ∈ xs, x.token.position < y.token.position := by
        intro y hy
        exact Nat.lt_of_lt_of_le h.2.2.1 (hfrom y hy)
      constructor
      · intro y hy
        rcases List.mem_cons.1 hy with rfl | hy
        · exact h.1
        · exact Nat.le_trans h.1 (Nat.le_of_lt (hbehind y hy))
      · refine List.pairwise_cons.2 ⟨?_, hrest⟩
        intro p hp
        obtain ⟨y, hy, rfl⟩ := List.mem_map.1 hp
        exact hbehind y hy

end Tiles

-- ============================================================== scans

namespace Scan

variable {xs : List Placed} {p : Nat}

theorem le_length (h : Scan t xs p) : p ≤ t.length := by
  induction h with
  | start => exact Nat.zero_le _
  | blank _ hdrop _ _ =>
      have hlen := congrArg List.length hdrop
      rw [List.length_drop, List.length_cons] at hlen
      omega
  | token _ hk ih =>
      have hlen := hk.isPrefix.length_le
      rw [List.length_drop] at hlen
      omega

/-- What was scanned is tiled. -/
theorem tiles (h : Scan t xs p) : Tiles t 0 xs p := by
  induction h with
  | start => exact ⟨Nat.le_refl _, rfl⟩
  | blank _ hdrop hc ih => exact ih.blank hdrop hc
  | token _ hk ih => exact ih.token _ (Nat.lt_add_of_pos_right hk.length_pos)

/-- What was scanned is tokens where they stand. -/
theorem begins (h : Scan t xs p) : ∀ x ∈ xs,
    x.token.kind.Begins (t.drop x.token.position) (Text.slice t x.token.position x.stop) := by
  induction h with
  | start => simp
  | blank _ _ _ ih => exact ih
  | token _ hk ih =>
      intro x hx
      rcases List.mem_append.1 hx with hx | hx
      · exact ih x hx
      · obtain rfl := List.mem_singleton.1 hx
        rw [slice_of_isPrefix hk.isPrefix]
        exact hk

/-- What a scan has passed, the lexer has cut off. -/
theorem tokenize_eq (h : Scan t xs p) :
    tokenize 0 t
      = (Lexeme.tokens p (Lexeme.split (t.drop p))).map (xs.map Placed.token ++ ·) := by
  induction h with
  | start =>
      rw [tokenize, List.drop_zero]
      cases Lexeme.tokens 0 (Lexeme.split t) <;> rfl
  | @blank xs p c cs _ hdrop hc ih =>
      rw [ih, hdrop, Lexeme.tokens_of_isBlank hc, ← List.drop_drop, hdrop]
      rfl
  | @token xs p raw k _ hk ih =>
      rw [ih, Lexeme.tokens_of_begins hk, List.drop_drop]
      cases Lexeme.tokens (p + raw.length) (Lexeme.split (t.drop (p + raw.length))) with
      | error e => rfl
      | ok ts =>
          show Except.ok (xs.map Placed.token ++ (⟨k, p⟩ : Token Text) :: ts)
            = Except.ok ((xs ++ [(⟨⟨k, p⟩, p + raw.length⟩ : Placed)]).map Placed.token ++ ts)
          rw [List.map_append, List.append_assoc]
          rfl

/-- A scan passes blanks. -/
theorem blanks (h : Scan t xs p) {q : Nat} (hle : p ≤ q) (hq : q ≤ t.length)
    (hblank : Text.isBlank (Text.slice t p q) = true) : Scan t xs q := by
  induction q, hle using Nat.le_induction with
  | base => exact h
  | succ q hle ih =>
      obtain ⟨c, cs, hdrop⟩ : ∃ c cs, t.drop q = c :: cs :=
        List.exists_cons_of_length_pos (by rw [List.length_drop]; omega)
      rw [slice_succ hle hdrop, Text.isBlank, List.all_append, Bool.and_eq_true] at hblank
      refine (ih (by omega) hblank.1).blank hdrop ?_
      simpa using hblank.2

/-- Tokens that are at their places are passed. -/
theorem of_tiles (h : Scan t xs p) {ys : List Placed} {q : Nat} (hq : q ≤ t.length)
    (htiles : Tiles t p ys q)
    (hbegins : ∀ y ∈ ys,
      y.token.kind.Begins (t.drop y.token.position) (Text.slice t y.token.position y.stop)) :
    Scan t (xs ++ ys) q := by
  induction ys generalizing xs p with
  | nil =>
      rw [List.append_nil]
      exact h.blanks htiles.1 hq htiles.2
  | cons y ys ih =>
      obtain ⟨⟨k, pos⟩, stop⟩ := y
      obtain ⟨hpos, hblank, hstop, hrest⟩ := htiles
      have hk := hbegins _ List.mem_cons_self
      have hend := hrest.le
      dsimp only at hpos hblank hstop hrest hk hend
      have hlength : stop = pos + (Text.slice t pos stop).length := by
        rw [Text.slice, List.length_take, List.length_drop]
        omega
      have hnext := (h.blanks hpos (by omega) hblank).token hk
      rw [← hlength] at hnext
      have hall := ih hnext hrest fun z hz => hbegins z (List.mem_cons_of_mem _ hz)
      rw [List.append_assoc] at hall
      exact hall

/-- A scan goes on until the end, an integer of too many digits, or a place
where it is stuck. -/
theorem exists_end (h : Scan t xs p) : ∃ ys q, Scan t ys q
    ∧ (q = t.length ∨ (∃ n, Overflows (t.drop q) n) ∨ Stuck (t.drop q)) := by
  induction hn : t.length - p using Nat.strong_induction_on generalizing xs p with
  | _ n ih =>
      subst hn
      have hle := h.le_length
      cases hdrop : t.drop p with
      | nil =>
          refine ⟨xs, p, h, .inl ?_⟩
          have hlen := congrArg List.length hdrop
          rw [List.length_drop, List.length_nil] at hlen
          omega
      | cons c cs =>
          have hlen := congrArg List.length hdrop
          rw [List.length_drop, List.length_cons] at hlen
          by_cases hc : c.isBlank = true
          · exact ih _ (by omega) (h.blank hdrop hc) rfl
          · rcases exists_begins (Bool.eq_false_iff.2 hc) cs with ⟨raw, k, hk⟩ | ⟨n, hn⟩ | hstuck
            · rw [← hdrop] at hk
              have hpos := hk.length_pos
              exact ih _ (by omega) (h.token hk) rfl
            · exact ⟨xs, p, h, .inr (.inl ⟨n, hdrop ▸ hn⟩)⟩
            · exact ⟨xs, p, h, .inr (.inr (hdrop ▸ hstuck))⟩

end Scan

-- ============================================================== texts

/-- At the end of a scan everything is cut off. -/
theorem Scan.tokenize_eq_ok {xs : List Placed} (h : Scan t xs t.length) :
    tokenize 0 t = .ok (xs.map Placed.token) := by
  rw [h.tokenize_eq, List.drop_length, Lexeme.split, Lexeme.tokens]
  show Except.ok (xs.map Placed.token ++ []) = _
  rw [List.append_nil]

/-- A text is refused where its scan is stuck. -/
theorem Scan.tokenize_of_stuck {xs : List Placed} {p : Nat} (h : Scan t xs p)
    (hp : Stuck (t.drop p)) :
    tokenize 0 t = .error (.malformed (Stuck.fault (t.drop p)) p) := by
  rw [h.tokenize_eq, Lexeme.tokens_of_stuck hp]
  rfl

/-- A text is too long where its scan meets an integer that is. -/
theorem Scan.tokenize_of_overflows {xs : List Placed} {p n : Nat} (h : Scan t xs p)
    (hp : Overflows (t.drop p) n) : tokenize 0 t = .error (.oversized n) := by
  rw [h.tokenize_eq, Lexeme.tokens_of_overflows hp]
  rfl

/-- A text is exactly its tokens when a scan takes it to its end. -/
theorem exact_iff_scan {xs : List Placed} : Exact t xs ↔ Scan t xs t.length :=
  ⟨fun h => Scan.start.of_tiles (Nat.le_refl _) h.tiles h.begins, fun h => ⟨h.tiles, h.begins⟩⟩

/-- What becomes of a text: a scan reaches its end, or a place where an
integer has too many digits, or one where nothing stands. -/
theorem tokenize_cases (t : Text) :
    (∃ xs, Exact t xs ∧ tokenize 0 t = .ok (xs.map Placed.token))
      ∨ (∃ xs p n, Scan t xs p ∧ Overflows (t.drop p) n ∧ tokenize 0 t = .error (.oversized n))
      ∨ ∃ xs p, Scan t xs p ∧ Stuck (t.drop p)
        ∧ tokenize 0 t = .error (.malformed (Stuck.fault (t.drop p)) p) := by
  obtain ⟨xs, p, hscan, hend⟩ := (Scan.start (t := t)).exists_end
  rcases hend with rfl | ⟨n, hn⟩ | hstuck
  · exact .inl ⟨xs, exact_iff_scan.2 hscan, hscan.tokenize_eq_ok⟩
  · exact .inr (.inl ⟨xs, p, n, hscan, hn, hscan.tokenize_of_overflows hn⟩)
  · exact .inr (.inr ⟨xs, p, hscan, hstuck, hscan.tokenize_of_stuck hstuck⟩)

/-- A text is accepted when it is tokens with blanks between them. -/
theorem tokenize_eq_ok_iff {ts : List (Token Text)} :
    tokenize 0 t = .ok ts ↔ ∃ xs, Exact t xs ∧ xs.map Placed.token = ts := by
  constructor
  · intro h
    rcases tokenize_cases t with ⟨xs, hxs, hok⟩ | ⟨_, _, _, -, -, hlong⟩ | ⟨_, _, -, -, hrefused⟩
    · exact ⟨xs, hxs, Except.ok.inj (hok.symm.trans h)⟩
    · cases hlong.symm.trans h
    · cases hrefused.symm.trans h
  · rintro ⟨xs, hxs, rfl⟩
    exact (exact_iff_scan.1 hxs).tokenize_eq_ok

/-- A text is refused where a scan comes to a place at which nothing
stands. -/
theorem tokenize_eq_malformed_iff {fault : ExprFault} {p : Nat} :
    tokenize 0 t = .error (.malformed fault p)
      ↔ (∃ xs, Scan t xs p) ∧ Stuck (t.drop p) ∧ fault = Stuck.fault (t.drop p) := by
  constructor
  · intro h
    rcases tokenize_cases t with ⟨_, -, hok⟩ | ⟨_, _, _, -, -, hlong⟩ | ⟨xs, q, hxs, hstuck, hrefused⟩
    · cases hok.symm.trans h
    · cases hlong.symm.trans h
    · cases hrefused.symm.trans h
      exact ⟨⟨xs, hxs⟩, hstuck, rfl⟩
  · rintro ⟨⟨xs, hxs⟩, hstuck, rfl⟩
    exact hxs.tokenize_of_stuck hstuck

/-- A text is too long to be read where a scan comes to an integer of too
many digits. -/
theorem tokenize_eq_oversized_iff {n : Nat} :
    tokenize 0 t = .error (.oversized n) ↔ ∃ xs p, Scan t xs p ∧ Overflows (t.drop p) n := by
  constructor
  · intro h
    rcases tokenize_cases t with ⟨_, -, hok⟩ | ⟨xs, p, m, hxs, hm, hlong⟩ | ⟨_, _, -, -, hrefused⟩
    · cases hok.symm.trans h
    · cases hlong.symm.trans h
      exact ⟨xs, p, hxs, hm⟩
    · cases hrefused.symm.trans h
  · rintro ⟨xs, p, hxs, hn⟩
    exact hxs.tokenize_of_overflows hn

/-- The lexer is lossless and exact. It succeeds on a text exactly when the
text is its tokens and blanks between them, and then the tokens begin one
behind the other and are read with the length of the text as their end. It
refuses a text at a position exactly when a scan reaches the position and
neither a blank nor a token stands there, and for its length alone exactly
when a scan reaches an integer of too many digits. -/
theorem tokenize_exact (t : Text) :
    (∀ ts, tokenize 0 t = .ok ts ↔ ∃ xs, Exact t xs ∧ xs.map Placed.token = ts)
      ∧ (∀ ts, tokenize 0 t = .ok ts →
          (ts.map Token.position).Pairwise (· < ·)
            ∧ Expr.parseAt 0 t = Grammar.whole t.length (ts.map Expr.toItem))
      ∧ (∀ fault p, tokenize 0 t = .error (.malformed fault p)
          ↔ (∃ xs, Scan t xs p) ∧ Stuck (t.drop p) ∧ fault = Stuck.fault (t.drop p))
      ∧ ∀ n, tokenize 0 t = .error (.oversized n)
          ↔ ∃ xs p, Scan t xs p ∧ Overflows (t.drop p) n := by
  refine ⟨fun ts => tokenize_eq_ok_iff, fun ts hts => ?_,
    fun fault p => tokenize_eq_malformed_iff, fun n => tokenize_eq_oversized_iff⟩
  obtain ⟨xs, hxs, rfl⟩ := tokenize_eq_ok_iff.1 hts
  constructor
  · rw [List.map_map]
    exact hxs.tiles.pairwise.2
  · rw [Expr.parseAt_eq, hts, Nat.zero_add]
    rfl

/-- The mark of a conditional in front of a number is no optional access,
and a quote that does not close is refused where it stands. -/
theorem tokenize_exact_conditional :
    (∃ xs, Exact ['a', '?', '.', '5'] xs ∧ xs.map Placed.token
      = [⟨.name ['a'], 0⟩, ⟨.operator .question, 1⟩,
         ⟨.number (.float (.finite 4503599627370496 (-53))), 2⟩])
    ∧ (∃ xs, Scan ['a', '.', '\'', 'b'] xs 2) ∧ Stuck ['\'', 'b'] := by
  constructor
  · exact ((tokenize_exact ['a', '?', '.', '5']).1 _).1 (by decide +kernel)
  · have hrefused := ((tokenize_exact ['a', '.', '\'', 'b']).2.2.1 .unterminatedQuote 2).1 (by decide +kernel)
    exact ⟨hrefused.1, hrefused.2.1⟩

end KeyHarvest
