/-
Quoted keys in one pass. A source is searched for keys by a pattern, and a
pattern tries: a greedy run gives back what it took too much, a lazy one
takes more, and the first way that fits wins. Here the same keys are found
by a scanner that never goes back (`scan`): it looks for a quote, walks
over the name space, the point, the dotted name and the bar, passes the
first code point of the payload, and stops at the nearest quote behind it.

That the two agree rests on the classes of neighbours. No bar is in a
dotted name, so of all the lengths that a greedy run can have only the
longest leads to the bar (`greedyRun_of_apart`); and a lazy run before a
single code point ends at the first one that fits (`lazyRun_of_head`).
Where a key stands is also said without a scanner (`Stands`), and the
scanner is right about it in both directions
(`exists_stands_of_keyLength?`, `keyLength?_of_stands`).

A source is a text that can be encoded, as a search first hands it to the
grammar of scripts in that form.
-/
import KeyHarvest.Keys.Quoted
import KeyHarvest.Proofs.Catalog.Insert
import KeyHarvest.Proofs.Text.Scalar
import Mathlib.Data.List.Infix
import Mathlib.Data.List.TakeWhile

namespace KeyHarvest

-- ============================================================ patterns

/-- The length of the longest beginning of a text that is in a class. -/
def Text.runLength (p : CodePoint → Bool) (t : Text) : Nat := (t.takeWhile p).length

/-- Whether a text begins with a code point of a class. -/
def Text.beginsWith (p : CodePoint → Bool) (t : Text) : Bool := t.head?.any p

namespace Pattern

open Text (runLength beginsWith)

variable {β : Type} {p s : CodePoint → Bool} {items : List Item} {c : CodePoint} {cs : Text}

theorem runLength_of_pos (hc : p c = true) : runLength p (c :: cs) = runLength p cs + 1 := by
  rw [runLength, List.takeWhile_cons_of_pos hc, List.length_cons, runLength]

/-- A run ends at a code point without it. -/
theorem runLength_of_neg (hc : ¬ p c = true) : runLength p (c :: cs) = 0 := by
  rw [runLength, List.takeWhile_cons_of_neg hc, List.length_nil]

/-- A greedy run before what begins with nothing of its class takes all it
can, and never gives back. -/
theorem greedyRun_of_apart {rest : Text → Option β}
    (hrest : ∀ c cs, p c = true → rest (c :: cs) = none) (t : Text) :
    greedyRun p rest t
      = if runLength p t = 0 then none
        else (rest (t.drop (runLength p t))).map fun b => (runLength p t, b) := by
  induction t with
  | nil => rfl
  | cons c cs ih =>
      by_cases hc : p c = true
      · rw [greedyRun, if_pos hc, ih, runLength_of_pos hc, if_neg (Nat.succ_ne_zero _),
          List.drop_succ_cons]
        by_cases hrun : runLength p cs = 0
        · rw [if_pos hrun, hrun, List.drop_zero]
        · -- the run goes on, so it cannot end here
          have hnone : rest cs = none := by
            cases cs with
            | nil => exact absurd rfl hrun
            | cons d ds =>
                by_cases hd : p d = true
                · exact hrest d ds hd
                · exact absurd (runLength_of_neg hd) hrun
          rw [if_neg hrun, hnone]
          cases rest (cs.drop (runLength p cs)) <;> rfl
      · rw [greedyRun, if_neg hc, runLength_of_neg hc, if_pos rfl]

/-- A lazy run before one code point of a class ends at the first of
these. -/
theorem lazyRun_of_head {b : β} {rest : Text → Option β}
    (hrest : ∀ t, rest t = if beginsWith s t then some b else none) (c : CodePoint) (cs : Text) :
    lazyRun p rest (c :: cs)
      = if p c = true ∧ beginsWith s (cs.drop (runLength (fun d => p d && !s d) cs)) = true
        then some (runLength (fun d => p d && !s d) cs + 1, b) else none := by
  induction cs generalizing c with
  | nil =>
      have hnone : rest [] = none := by rw [hrest]; rfl
      rw [lazyRun, hnone, List.drop_nil]
      simp [lazyRun, beginsWith]
  | cons d ds ih =>
      by_cases hc : p c = true
      · by_cases hs : s d = true
        · have hstop : ¬ (p d && !s d) = true := by simp [hs]
          rw [lazyRun, if_pos hc, hrest, runLength_of_neg hstop]
          simp [beginsWith, hs, hc]
        · have hon : rest (d :: ds) = none := by rw [hrest]; simp [beginsWith, hs]
          rw [lazyRun, if_pos hc, hon, ih]
          by_cases hd : p d = true
          · have hgo : (p d && !s d) = true := by simp [hd, hs]
            rw [runLength_of_pos hgo, List.drop_succ_cons]
            simp only [hc, hd, true_and]
            split <;> rfl
          · have hstop : ¬ (p d && !s d) = true := by simp [hd]
            rw [runLength_of_neg hstop]
            simp [beginsWith, hs, hd]
      · rw [lazyRun, if_neg hc, if_neg fun h => hc h.1]

-- ============================================================= lengths

/-- One code point is matched before the others. -/
theorem length?_one (p : CodePoint → Bool) (items : List Item) (c : CodePoint) (cs : Text) :
    length? (.one p :: items) (c :: cs)
      = if p c then (length? items cs).map (1 + ·) else none := by
  rw [length?, lengths?]
  split
  · rw [length?, Option.map_map, Option.map_map]
    rfl
  · rfl

/-- A literal text is passed as a whole. -/
theorem length?_spelled (lit : Text) (items : List Item) (t : Text) :
    length? (spelled lit ++ items) t
      = (Text.after? lit t).bind fun r => (length? items r).map (lit.length + ·) := by
  induction lit generalizing t with
  | nil =>
      show length? items t = (length? items t).map (0 + ·)
      simp
  | cons a lit ih =>
      show length? (.one (· = a) :: (spelled lit ++ items)) t = _
      cases t with
      | nil => rfl
      | cons c cs =>
          rw [length?_one, ih, Text.after?_cons]
          by_cases hc : c = a
          · rw [if_pos (decide_eq_true hc), if_pos hc, Option.map_bind]
            congr 1
            funext r
            rw [Function.comp, Option.map_map, List.length_cons]
            congr 1
            funext n
            simp only [Function.comp]
            omega
          · rw [if_neg (by simpa using hc), if_neg hc]
            rfl

/-- A greedy run gives nothing back when what follows cannot begin inside
the run. -/
theorem length?_greedy {items : List Item}
    (hitems : ∀ c cs, p c = true → lengths? items (c :: cs) = none) (t : Text) :
    length? (.greedy p :: items) t
      = if runLength p t = 0 then none
        else (length? items (t.drop (runLength p t))).map (runLength p t + ·) := by
  rw [length?, lengths?, greedyRun_of_apart hitems]
  split
  · rfl
  · rw [length?, Option.map_map, Option.map_map, Option.map_map]
    rfl

/-- A lazy run takes one code point and stops at the next place where the
item behind it matches. -/
theorem length?_lazy_one (p s : CodePoint → Bool) (t : Text) :
    length? [.lazy p, .one s] t
      = match t with
        | [] => none
        | c :: cs =>
            if p c = true ∧ beginsWith s (cs.drop (runLength (fun d => p d && !s d) cs)) = true
            then some (runLength (fun d => p d && !s d) cs + 2) else none := by
  have hone : ∀ u, lengths? [.one s] u = if beginsWith s u then some [1] else none := by
    intro u
    cases u <;> rfl
  rw [length?, lengths?]
  cases t with
  | nil => rfl
  | cons c cs =>
      rw [lazyRun_of_head hone]
      dsimp only
      split <;> rfl

end Pattern

namespace QuotedKeys

open Text (Scalar runLength beginsWith)

-- ============================================================= scanner

/-- A code point of the dotted name of a key. -/
def isNameChar (c : CodePoint) : Bool := c.isAsciiWord || c = '.'

/-- A code point that the search for the closing quote walks over. -/
def isPayloadChar (c : CodePoint) : Bool := c ≠ '+' && !isQuote c

/-- The length of the payload at the start of a text: any code point but a
plus sign, and all up to the nearest quote, if no plus sign is in front of
that. -/
def payloadLength? : Text → Option Nat
  | [] => none
  | c :: cs =>
      if c ≠ '+' ∧ beginsWith isQuote (cs.drop (runLength isPayloadChar cs)) then
        some (runLength isPayloadChar cs + 1)
      else none

/-- The length of the key behind the quote that a text begins with. -/
def keyLength? (space : Text) : Text → Option Nat
  | [] => none
  | c :: cs =>
      if isQuote c then do
        let dotted ← Text.after? (space ++ [CodePoint.ofChar '.']) cs
        let name := runLength isNameChar dotted
        let payload ← Text.after? ['|'] (dotted.drop name)
        let n ← payloadLength? payload
        if name = 0 then none else some (space.length + 1 + name + 1 + n)
      else none

/-- The keys of a source from left to right. After a key the scanner goes
on behind its closing quote, and otherwise at the next code point. -/
def scan (space : Text) : Text → List Text
  | [] => []
  | c :: cs =>
      match keyLength? space (c :: cs) with
      | some n => cs.take n :: scan space (cs.drop (n + 1))
      | none => scan space cs
termination_by t => t.length
decreasing_by all_goals (simp only [List.length_cons, List.length_drop]; omega)

/-- What is matched behind the dot is the payload and a quote. -/
theorem length?_payload (t : Text) :
    Pattern.length? [.lazy (· ≠ '+'), .one isQuote] t = (payloadLength? t).map (· + 1) := by
  rw [Pattern.length?_lazy_one]
  cases t with
  | nil => rfl
  | cons c cs =>
      rw [payloadLength?]
      by_cases h : c ≠ '+' ∧ beginsWith isQuote (cs.drop (runLength isPayloadChar cs)) = true
      · rw [if_pos h]
        exact if_pos ⟨decide_eq_true h.1, h.2⟩
      · rw [if_neg h]
        exact if_neg fun hboth => h ⟨of_decide_eq_true hboth.1, hboth.2⟩

/-- The pattern of keys fits where the scanner finds a key, and it is as
long as the key with its two quotes. -/
theorem length?_pattern (space t : Text) :
    Pattern.length? (pattern space) t = (keyLength? space t).map (· + 2) := by
  have hpattern : pattern space
      = .one isQuote :: (Pattern.spelled (space ++ [CodePoint.ofChar '.'])
          ++ .greedy isNameChar :: (Pattern.spelled ['|'] ++ [.lazy (· ≠ '+'), .one isQuote])) := by
    unfold pattern Pattern.spelled
    simp only [List.map_append, List.map_cons, List.map_nil, List.append_assoc, List.cons_append,
      List.nil_append]
    rfl
  -- a name holds no bar, so the run of the name gives nothing back
  have hbar : ∀ c cs, isNameChar c = true →
      Pattern.lengths? (Pattern.spelled ['|'] ++ [.lazy (· ≠ '+'), .one isQuote]) (c :: cs)
        = none := by
    intro c cs hc
    have hne : ¬ c = '|' := by
      rintro rfl
      exact absurd hc (by decide)
    show Pattern.lengths? (.one (· = '|') :: _) (c :: cs) = none
    rw [Pattern.lengths?]
    simp [hne]
  cases t with
  | nil => rw [hpattern]; rfl
  | cons c cs =>
      rw [hpattern, Pattern.length?_one, keyLength?]
      by_cases hc : isQuote c = true
      · rw [if_pos hc, if_pos hc, Pattern.length?_spelled]
        cases Text.after? (space ++ [CodePoint.ofChar '.']) cs with
        | none => rfl
        | some dotted =>
            simp only [Option.bind_some, Option.bind_eq_bind]
            rw [Pattern.length?_greedy hbar, Pattern.length?_spelled]
            cases Text.after? ['|'] (dotted.drop (runLength isNameChar dotted)) with
            | none => split <;> rfl
            | some payload =>
                simp only [Option.bind_some, length?_payload]
                cases payloadLength? payload with
                | none => split <;> rfl
                | some n =>
                    by_cases hname : runLength isNameChar dotted = 0
                    · rw [if_pos hname]
                      simp [hname]
                    · rw [if_neg hname]
                      simp [hname]
                      omega
      · rw [if_neg hc, if_neg hc]
        rfl

-- ================================================================ keys

/-- The parts of a key behind its name space: the dotted name, the first
code point of the payload, and what else is in it. -/
structure KeyParts where
  name : Text
  first : CodePoint
  body : Text
  name_ne_nil : name ≠ []
  isNameChar_of_mem : ∀ c ∈ name, isNameChar c = true
  first_ne_plus : first ≠ '+'
  ne_plus_of_mem : ∀ c ∈ body, c ≠ '+'

/-- The key of its parts. -/
def KeyParts.key (space : Text) (k : KeyParts) : Text :=
  space ++ CodePoint.ofChar '.' :: (k.name ++ CodePoint.ofChar '|' :: k.first :: k.body)

/-- A key stands between two quotes at the start of a text, in front of
`rest`. The second quote is the nearest behind the first code point of the
payload, and it need not be the same as the first. -/
inductive Stands (space : Text) : Text → Text → Text → Prop where
  | between {opening closing : CodePoint} {rest : Text} (k : KeyParts)
      (hopening : isQuote opening = true) (hclosing : isQuote closing = true)
      (hbody : ∀ c ∈ k.body, isQuote c = false) :
      Stands space (opening :: (k.key space ++ closing :: rest)) (k.key space) rest

theorem runLength_append {p : CodePoint → Bool} {w t : Text} (hw : ∀ c ∈ w, p c = true)
    (ht : beginsWith p t = false) : runLength p (w ++ t) = w.length := by
  have hstop : t.takeWhile p = [] := by
    cases t with
    | nil => rfl
    | cons c cs => exact List.takeWhile_cons_of_neg (by simpa [beginsWith] using ht)
  rw [runLength, List.takeWhile_append_of_pos hw, hstop, List.append_nil]

/-- A text is a run and what is left of it. -/
theorem take_runLength_append (p : CodePoint → Bool) (t : Text) :
    t.takeWhile p ++ t.drop (runLength p t) = t :=
  (List.prefix_append_drop (List.takeWhile_prefix p)).symm

/-- A text that begins with the property has a first code point. -/
theorem exists_of_beginsWith {p : CodePoint → Bool} {t : Text} (h : beginsWith p t = true) :
    ∃ c cs, t = c :: cs ∧ p c = true := by
  cases t with
  | nil => cases h
  | cons c cs => exact ⟨c, cs, rfl, h⟩

/-- A payload is bounded by the first quote behind its first code point. -/
theorem payloadLength?_eq_some {t : Text} {n : Nat} :
    payloadLength? t = some n
      ↔ ∃ first body closing rest, t = first :: (body ++ closing :: rest) ∧ n = body.length + 1
        ∧ first ≠ '+' ∧ isQuote closing = true ∧ ∀ c ∈ body, isPayloadChar c = true := by
  constructor
  · intro h
    cases t with
    | nil => cases h
    | cons first cs =>
        rw [payloadLength?] at h
        split at h
        · next hends =>
            obtain ⟨closing, rest, hdrop, hclosing⟩ := exists_of_beginsWith hends.2
            refine ⟨first, cs.takeWhile isPayloadChar, closing, rest, ?_, (Option.some.inj h).symm,
              hends.1, hclosing, fun c hc => List.mem_takeWhile_imp hc⟩
            rw [← hdrop, take_runLength_append]
        · cases h
  · rintro ⟨first, body, closing, rest, rfl, rfl, hfirst, hclosing, hbody⟩
    have hstop : beginsWith isPayloadChar (closing :: rest) = false := by
      simp [beginsWith, isPayloadChar, hclosing]
    have hrun := runLength_append hbody hstop
    have hends : beginsWith isQuote (closing :: rest) = true := hclosing
    rw [payloadLength?, hrun, List.drop_left, if_pos ⟨hfirst, hends⟩]

/-- A key that the scanner finds stands there. -/
theorem exists_stands_of_keyLength? {space t : Text} {n : Nat} (h : keyLength? space t = some n) :
    ∃ key rest, Stands space t key rest ∧ n = key.length := by
  cases t with
  | nil => cases h
  | cons opening cs =>
      rw [keyLength?] at h
      split at h
      · next hopening =>
          simp only [Option.bind_eq_bind, Option.bind_eq_some_iff, Text.after?_eq_some,
            payloadLength?_eq_some] at h
          obtain ⟨dotted, rfl, payload, hbar, m, ⟨first, body, closing, rest, rfl, rfl, hfirst,
            hclosing, hbody⟩, h⟩ := h
          split at h
          · cases h
          · next hname =>
              have hdotted := take_runLength_append isNameChar dotted
              rw [hbar] at hdotted
              have hplus : ∀ c ∈ body, c ≠ '+' ∧ isQuote c = false := fun c hc => by
                simpa [isPayloadChar] using hbody c hc
              let k : KeyParts :=
                ⟨dotted.takeWhile isNameChar, first, body,
                  fun hnil => hname (by simp [runLength, hnil]),
                  fun c hc => List.mem_takeWhile_imp hc, hfirst, fun c hc => (hplus c hc).1⟩
              have hstands : Stands space (opening :: (k.key space ++ closing :: rest))
                  (k.key space) rest :=
                .between k hopening hclosing fun c hc => (hplus c hc).2
              refine ⟨k.key space, rest, ?_, ?_⟩
              · rw [← hdotted]
                simpa [KeyParts.key, k] using hstands
              · rw [← Option.some.inj h]
                simp only [KeyParts.key, k, runLength, List.length_append, List.length_cons]
                omega
      · cases h

/-- The scanner finds a key where one stands. -/
theorem keyLength?_of_stands {space t key rest : Text} (h : Stands space t key rest) :
    keyLength? space t = some key.length := by
  obtain @⟨opening, closing, _, k, hopening, hclosing, hbody⟩ := h
  have hrun : runLength isNameChar
      (k.name ++ CodePoint.ofChar '|' :: k.first :: (k.body ++ closing :: rest))
        = k.name.length := runLength_append k.isNameChar_of_mem (by rfl)
  have hpayload : payloadLength? (k.first :: (k.body ++ closing :: rest))
      = some (k.body.length + 1) :=
    payloadLength?_eq_some.2 ⟨k.first, k.body, closing, rest, rfl, rfl, k.first_ne_plus, hclosing,
      fun c hc => by simp [isPayloadChar, k.ne_plus_of_mem c hc, hbody c hc]⟩
  have hname : k.name.length ≠ 0 := fun h => k.name_ne_nil (List.length_eq_zero_iff.1 h)
  have hspace : Text.after? (space ++ [CodePoint.ofChar '.']) (k.key space ++ closing :: rest)
      = some (k.name ++ CodePoint.ofChar '|' :: k.first :: (k.body ++ closing :: rest)) := by
    rw [Text.after?_eq_some]
    simp [KeyParts.key]
  have hbar : Text.after? ['|']
      (CodePoint.ofChar '|' :: k.first :: (k.body ++ closing :: rest))
      = some (k.first :: (k.body ++ closing :: rest)) := Text.after?_eq_some.2 rfl
  rw [keyLength?, if_pos hopening]
  simp only [hspace, hrun, List.drop_left, hbar, hpayload, Option.bind_eq_bind, Option.bind_some,
    if_neg hname]
  simp only [KeyParts.key, List.length_append, List.length_cons]
  congr 1
  omega

/-- A key stands between two code points of the text. -/
theorem Stands.text_eq {space t key rest : Text} (h : Stands space t key rest) :
    ∃ opening closing, t = opening :: (key ++ closing :: rest) := by
  cases h with
  | @between opening closing _ _ _ _ _ => exact ⟨opening, closing, rfl⟩

/-- Where a key stands, the scanner takes it and goes on behind it. -/
theorem scan_of_stands {space t key rest : Text} (h : Stands space t key rest) :
    scan space t = key :: scan space rest := by
  have hlength := keyLength?_of_stands h
  obtain ⟨opening, closing, rfl⟩ := h.text_eq
  rw [scan, hlength]
  dsimp only
  rw [List.take_left, List.drop_length_add_append, List.drop_one, List.tail_cons]

/-- Every key that the scanner finds stands somewhere in the source. -/
theorem exists_stands_of_mem_scan {space source key : Text} (h : key ∈ scan space source) :
    ∃ before t rest, source = before ++ t ∧ Stands space t key rest := by
  fun_induction scan space source with
  | case1 => cases h
  | case2 c cs n hn ih =>
      obtain ⟨found, behind, hfound, rfl⟩ := exists_stands_of_keyLength? hn
      obtain ⟨opening, closing, htext⟩ := hfound.text_eq
      cases htext
      rw [List.take_left, List.drop_length_add_append, List.drop_one, List.tail_cons] at h
      rw [List.drop_length_add_append, List.drop_one, List.tail_cons] at ih
      rcases List.mem_cons.1 h with rfl | h
      · exact ⟨[], _, behind, rfl, hfound⟩
      · obtain ⟨before, t, rest, rfl, hstands⟩ := ih h
        exact ⟨c :: (found ++ closing :: before), t, rest, by simp, hstands⟩
  | case3 c cs hn ih =>
      obtain ⟨before, t, rest, rfl, hstands⟩ := ih h
      exact ⟨c :: before, t, rest, rfl, hstands⟩

/-- The keys of a source are those that the scanner finds. -/
theorem captures_eq_scan (space source : Text) : captures space source = scan space source := by
  unfold captures
  fun_induction scan space source with
  | case1 => rw [Pattern.findAll, List.map_nil]
  | case2 c cs n hn ih =>
      rw [Pattern.findAll, length?_pattern, hn]
      dsimp only [Option.map_some]
      rw [List.map_cons, show n + 2 - 1 = n + 1 from rfl, ih]
      congr 1
      obtain ⟨key, rest, hkey, rfl⟩ := exists_stands_of_keyLength? hn
      obtain ⟨opening, closing, htext⟩ := hkey.text_eq
      cases htext
      have htake : (key ++ closing :: rest).take (key.length + 1) = key ++ [closing] := by
        rw [List.take_length_add_append]
        rfl
      rw [List.take_succ_cons, List.drop_one, List.tail_cons, htake, List.dropLast_concat,
        List.take_left]
  | case3 c cs hn ih =>
      rw [Pattern.findAll, length?_pattern, hn]
      exact ih

/-- The keys of a source are those that the scanner finds, without the
placeholders and without repetitions. -/
theorem extract_keys_eq (q : QuotedKeys) (source : Text) :
    (q.extract source).keys
      = ((scan q.space source).filter fun key =>
          decide (∀ marker ∈ q.excluded, ¬ marker <:+: key)).eraseDups := by
  have hholds : ∀ key, (!q.isPlaceholder key)
      = decide (∀ marker ∈ q.excluded, ¬ marker <:+: key) := by
    intro key
    rw [Bool.eq_iff_iff]
    simp [isPlaceholder, ← Text.holds_iff]
  rw [extract, Catalog.keys_empty_insertKeys, captures_eq_scan]
  simp only [hholds]

/-- A key is cut out of its source. -/
theorem scalar_of_mem_extract {q : QuotedKeys} {source key : Text} (hsource : Scalar source)
    (hkey : key ∈ (q.extract source).keys) : Scalar key := by
  rw [extract, Catalog.keys_empty_insertKeys, List.mem_eraseDups] at hkey
  obtain ⟨t, ht, rfl⟩ := List.mem_map.1 (List.mem_of_mem_filter hkey)
  have hfound : Scalar t := hsource.subset (Pattern.subset_of_mem_findAll ht)
  exact (hfound.drop 1).subset (List.dropLast_subset _)

/-- The keys of a source are what the scanner finds, from left to right,
without the placeholders and without repetitions, in every source that can
be encoded, for every name space and all markers. All of them can be
encoded again. -/
theorem keys_extract (q : QuotedKeys) {source : Text} (hsource : Scalar source) :
    (q.extract source).keys
      = ((scan q.space source).filter fun key =>
          decide (∀ marker ∈ q.excluded, ¬ marker <:+: key)).eraseDups
    ∧ ∀ key ∈ (q.extract source).keys, Scalar key :=
  ⟨extract_keys_eq q source, fun _ => scalar_of_mem_extract hsource⟩

/-- A key, another that would begin at its closing quote, and one with a
marker. -/
theorem keys_extract_neighbours :
    let q : QuotedKeys := ⟨"dfa", ["|http", "|not-set"]⟩
    let source : Text := "'dfa.a|b'dfa.c|d' \"dfa.e|http\""
    Scalar source ∧ (q.extract source).keys = [Text.ofString "dfa.a|b"] := by
  intro q source
  have hsource : Scalar source := by decide
  refine ⟨hsource, ?_⟩
  rw [(keys_extract q hsource).1]
  decide +kernel

end QuotedKeys

end KeyHarvest
