/-
Comments, and the blanks that lead up to them. A comment is decided by
what it begins with and by its first end, so one that ends in a text is
the same whatever follows the text (`commentLength?_append`). The blanks
before a comment are text like any other, and the text ends at the
comment (`takeWhile_isTextChar_of_comment`).
-/
import KeyHarvest.Markup.Piece
import Mathlib.Data.List.TakeWhile

namespace KeyHarvest

namespace Markup

-- =============================================================== runs

/-- Behind as much as a run is long is what follows the run. -/
theorem drop_length_takeWhile (p : CodePoint → Bool) (t : Text) :
    t.drop (t.takeWhile p).length = t.dropWhile p := by
  induction t with
  | nil => rfl
  | cons c cs ih =>
      by_cases hc : p c = true
      · rw [List.takeWhile_cons_of_pos hc, List.dropWhile_cons_of_pos hc]
        exact ih
      · rw [List.takeWhile_cons_of_neg hc, List.dropWhile_cons_of_neg hc]
        rfl

theorem length_takeWhile_le (p : CodePoint → Bool) (t : Text) :
    (t.takeWhile p).length ≤ t.length :=
  (List.takeWhile_prefix p).length_le

theorem starts_pos {c : CodePoint} {t : Text} (h : Text.starts c t = true) : 0 < t.length := by
  cases t with
  | nil => cases h
  | cons d ds => exact Nat.succ_pos _

/-- A text that ends with an angle bracket. -/
def Bracketed (t : Text) : Prop := t.getLast? = some (CodePoint.ofChar '>')

namespace Bracketed

variable {t cs rest : Text} {c : CodePoint} {n : Nat} {p : CodePoint → Bool}

/-- A text that ends with an angle bracket is not empty. -/
theorem pos (h : Bracketed t) : 0 < t.length := by
  cases t with
  | nil => exact absurd h nofun
  | cons c cs => exact Nat.succ_pos _

/-- What is left of such a text ends with the bracket too. -/
theorem drop (h : Bracketed t) (hn : n < t.length) : Bracketed (t.drop n) := by
  unfold Bracketed
  rw [List.getLast?_drop, if_neg (by omega)]
  exact h

/-- A first code point that is no bracket leaves such a text. -/
theorem tail (h : Bracketed (c :: cs)) (hc : c ≠ '>') : Bracketed cs := by
  cases cs with
  | nil => exact absurd (Option.some.inj h) hc
  | cons d ds => exact h

/-- A run that the bracket ends does not reach the end. -/
theorem run_lt (h : Bracketed t) (hp : p '>' = false) : (t.takeWhile p).length < t.length := by
  have hle := length_takeWhile_le p t
  by_cases heq : (t.takeWhile p).length = t.length
  · have hself : t.takeWhile p = t := (List.takeWhile_prefix p).eq_of_length heq
    have hlast : CodePoint.ofChar '>' ∈ t := List.mem_of_getLast? h
    rw [← hself] at hlast
    rw [List.mem_takeWhile_imp hlast] at hp
    cases hp
  · omega

theorem run_append (h : Bracketed t) (hp : p '>' = false) :
    (t ++ rest).takeWhile p = t.takeWhile p := by
  have hlt := h.run_lt hp
  rw [List.takeWhile_append, if_neg (by omega)]

theorem starts_append (h : Bracketed t) (c : CodePoint) :
    Text.starts c (t ++ rest) = Text.starts c t := by
  cases t with
  | nil => exact absurd h nofun
  | cons d ds => rfl

/-- What stands at the start of the text is not completed behind it. -/
theorem isPrefixOf_append (h : Bracketed t) {lit : Text} (hlit : CodePoint.ofChar '>' ∉ lit) :
    lit.isPrefixOf (t ++ rest) = lit.isPrefixOf t := by
  induction lit generalizing t with
  | nil => cases t <;> rfl
  | cons l lit ih =>
      cases t with
      | nil => exact absurd h nofun
      | cons c cs =>
          rw [List.cons_append, List.isPrefixOf, List.isPrefixOf]
          by_cases hc : c = '>'
          · have hne : (l == c) = false := by
              rw [beq_eq_false_iff_ne]
              intro hl
              exact hlit (by rw [hl, hc]; simp)
            rw [hne, Bool.false_and, Bool.false_and]
          · rw [ih (h.tail hc) fun hmem => hlit (List.mem_cons_of_mem l hmem)]

/-- Behind a literal without a bracket there is such a text again. -/
theorem of_after? (h : Bracketed t) {lit u : Text} (hlit : CodePoint.ofChar '>' ∉ lit)
    (hafter : Text.after? lit t = some u) : Bracketed u := by
  obtain rfl := Text.after?_eq_some.1 hafter
  unfold Bracketed at h ⊢
  rw [List.getLast?_append] at h
  cases hu : u.getLast? with
  | some c => rwa [hu] at h
  | none =>
      rw [hu, Option.none_or] at h
      exact absurd (List.mem_of_getLast? h) hlit

theorem after?_append (h : Bracketed t) {lit : Text} (hlit : CodePoint.ofChar '>' ∉ lit) :
    Text.after? lit (t ++ rest) = (Text.after? lit t).map (· ++ rest) := by
  unfold Text.after?
  rw [h.isPrefixOf_append hlit]
  split
  · rename_i hbegins
    rw [Option.map_some,
      List.drop_append_of_le_length (List.isPrefixOf_iff_prefix.1 hbegins).length_le]
  · rfl

end Bracketed

/-- What is left of a text that ends with an angle bracket: nothing, or
another such text. -/
def Clipped (t : Text) : Prop := t = [] ∨ Bracketed t

theorem Clipped.drop {t : Text} (h : Clipped t) (n : Nat) : Clipped (t.drop n) := by
  by_cases hn : n < t.length
  · rcases h with rfl | h
    · cases hn
    · exact .inr (h.drop hn)
  · exact .inl (List.drop_eq_nil_iff.2 (by omega))

theorem Clipped.tail {c : CodePoint} {cs : Text} (h : Clipped (c :: cs)) : Clipped cs := h.drop 1

theorem Clipped.bracketed {c : CodePoint} {cs : Text} (h : Clipped (c :: cs)) :
    Bracketed (c :: cs) :=
  h.resolve_left (List.cons_ne_nil c cs)

-- =========================================================== comments

/-- The end of a comment is its first one. -/
theorem commentTail_append {dashes n : Nat} {t : Text} (rest : Text)
    (h : commentTail dashes t = some n) : commentTail dashes (t ++ rest) = some n := by
  induction t generalizing dashes n with
  | nil => cases h
  | cons c cs ih =>
      rw [commentTail] at h
      rw [List.cons_append, commentTail]
      split at h
      · cases h
      · rename_i hzero
        rw [if_neg hzero]
        split at h
        · rename_i hdash
          rw [if_pos hdash]
          obtain ⟨k, hk, rfl⟩ := Option.map_eq_some_iff.1 h
          rw [ih hk]
          rfl
        · rename_i hdash
          rw [if_neg hdash]
          split at h
          · rename_i hend
            rw [if_pos hend]
            exact h
          · rename_i hend
            rw [if_neg hend]
            obtain ⟨k, hk, rfl⟩ := Option.map_eq_some_iff.1 h
            rw [ih hk]
            rfl

theorem commentTail_le {dashes n : Nat} {t : Text} (h : commentTail dashes t = some n) :
    n ≤ t.length := by
  induction t generalizing dashes n with
  | nil => cases h
  | cons c cs ih =>
      rw [commentTail] at h
      rw [List.length_cons]
      split at h
      · cases h
      · split at h
        · obtain ⟨k, hk, rfl⟩ := Option.map_eq_some_iff.1 h
          exact Nat.succ_le_succ (ih hk)
        · split at h
          · cases h
            omega
          · obtain ⟨k, hk, rfl⟩ := Option.map_eq_some_iff.1 h
            exact Nat.succ_le_succ (ih hk)

/-- What a comment begins with. -/
def commentOpening : Text := ['<', '!', '-', '-']

/-- A comment is its opening and what reaches up to its end. -/
theorem commentLength?_eq_some {t : Text} {n : Nat} :
    commentLength? t = some n
      ↔ ∃ rest k, t = commentOpening ++ rest ∧ commentTail 0 rest = some k ∧ n = k + 4 := by
  unfold commentLength?
  simp only [Option.bind_eq_bind, Option.bind_eq_some_iff, Text.after?_eq_some]
  constructor
  · rintro ⟨rest, rfl, k, hk, hn⟩
    exact ⟨rest, k, rfl, hk, (Option.some.inj hn).symm⟩
  · rintro ⟨rest, k, rfl, hk, rfl⟩
    exact ⟨rest, rfl, k, hk, rfl⟩

/-- A comment is the same whatever follows it. -/
theorem commentLength?_append {t : Text} {n : Nat} (rest : Text) (h : commentLength? t = some n) :
    commentLength? (t ++ rest) = some n := by
  obtain ⟨body, k, rfl, hk, rfl⟩ := commentLength?_eq_some.1 h
  refine commentLength?_eq_some.2 ⟨body ++ rest, k, ?_, commentTail_append rest hk, rfl⟩
  rw [List.append_assoc]

theorem commentLength?_le {t : Text} {n : Nat} (h : commentLength? t = some n) :
    4 ≤ n ∧ n ≤ t.length := by
  obtain ⟨body, k, rfl, hk, rfl⟩ := commentLength?_eq_some.1 h
  have hle := commentTail_le hk
  rw [List.length_append]
  refine ⟨by omega, ?_⟩
  show k + 4 ≤ 4 + body.length
  omega

/-- A comment starts with an angle bracket. -/
theorem starts_of_commentLength? {t : Text} {n : Nat} (h : commentLength? t = some n) :
    ∃ cs, t = CodePoint.ofChar '<' :: cs := by
  obtain ⟨body, k, rfl, -, -⟩ := commentLength?_eq_some.1 h
  exact ⟨_, rfl⟩

-- ============================================================= blanks

/-- Blanks are text. -/
theorem isTextChar_of_isGap {c : CodePoint} (h : isGap c = true) : isTextChar c = true := by
  cases htext : isTextChar c with
  | true => rfl
  | false =>
      simp only [isTextChar, Bool.not_eq_false', Bool.or_eq_true, decide_eq_true_eq] at htext
      rcases htext with ((rfl | rfl) | rfl) | hzero
      · revert h; decide
      · revert h; decide
      · revert h; decide
      · obtain rfl : c = .ofNat 0 := CodePoint.ext hzero
        revert h; decide

/-- A comment in front is one behind a gap. -/
theorem leadingComment?_eq_some {t : Text} {gap n : Nat} :
    leadingComment? t = some (gap, n)
      ↔ gap = gapLength t ∧ commentLength? (t.drop gap) = some n := by
  unfold leadingComment?
  rw [Option.map_eq_some_iff]
  constructor
  · rintro ⟨k, hk, heq⟩
    cases heq
    exact ⟨rfl, hk⟩
  · rintro ⟨rfl, hn⟩
    exact ⟨n, hn, rfl⟩

/-- No comment begins before a code point that is neither a blank nor a
bracket. -/
theorem leadingComment?_eq_none {c : CodePoint} {cs : Text} (hgap : isGap c = false)
    (hc : c ≠ '<') : leadingComment? (c :: cs) = none := by
  have hlength : gapLength (c :: cs) = 0 := by
    unfold gapLength
    rw [List.takeWhile_cons_of_neg (by simp [hgap])]
    rfl
  unfold leadingComment? commentLength? Text.after?
  rw [hlength]
  simp [Ne.symm hc, List.isPrefixOf]

/-- What leads up to a comment is text, and ends at the comment. -/
theorem takeWhile_isTextChar_of_comment {t cs : Text}
    (h : t.drop (gapLength t) = CodePoint.ofChar '<' :: cs) :
    t.takeWhile isTextChar = t.takeWhile isGap := by
  have hsplit : t = t.takeWhile isGap ++ CodePoint.ofChar '<' :: cs := by
    rw [← h]
    unfold gapLength
    rw [drop_length_takeWhile, List.takeWhile_append_dropWhile]
  have hrun : ∀ c ∈ t.takeWhile isGap, isTextChar c = true := fun c hc =>
    isTextChar_of_isGap (List.mem_takeWhile_imp hc)
  calc t.takeWhile isTextChar
      = (t.takeWhile isGap ++ CodePoint.ofChar '<' :: cs).takeWhile isTextChar := by rw [← hsplit]
    _ = t.takeWhile isGap := by
      rw [List.takeWhile_append_of_pos hrun, List.takeWhile_cons_of_neg (by decide),
        List.append_nil]

-- ========================================================= first piece

/-- A piece after which more is read. -/
theorem pieces_of_nextPiece {offset n : Nat} {c : CodePoint} {cs : Text} {piece : Piece}
    (hspace : isSpace c ≠ true) (hnext : nextPiece offset c cs = (piece, n))
    (hfinal : ∀ node, piece ≠ .final node) :
    pieces offset (c :: cs) = piece :: pieces (offset + 1 + (n - 1)) (cs.drop (n - 1)) := by
  rw [pieces, if_neg hspace, hnext]
  cases piece with
  | final node => exact absurd rfl (hfinal node)
  | _ => rfl

end Markup

end KeyHarvest
