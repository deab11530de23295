/-
Templates without tags. When all that stands in a template is text and
entities, nothing opens or closes, its markup is accepted, and the whole
of it is one stretch of text (`passages_of_unmarked`). So it oversteps
exactly when this stretch does, and a numbered reference with too many
digits is already such a template (`oversteps_reference`).
-/
import KeyHarvest.Proofs.Expr.Lexing
import KeyHarvest.Proofs.Markup.Mask
import KeyHarvest.Proofs.Markup.Nest
import KeyHarvest.Proofs.Template.Passages

namespace KeyHarvest

namespace Markup

/-- A node of text alone. -/
structure Node.IsText (n : Node) : Prop where
  kind : n.kind = .text ∨ n.kind = .entity
  flawless : n.flawed = false
  childless : n.children = []

/-- The tree of a text whose pieces open and close nothing. -/
theorem parse_of_plain {t : Text} {nodes : List Node} (hstart : markupStart t = 0)
    (h : pieces 0 t = nodes.map .plain) : parse t = .branch .document 0 t.length nodes := by
  unfold parse
  dsimp only
  rw [hstart, List.drop_zero, h, Nest.foldl_plain, Nest.finish_of_closed, List.append_nil,
    List.reverse_reverse]

-- =============================================================== text

/-- A digit is text, and no blank. -/
theorem isTextChar_of_isAsciiDigit {c : CodePoint} (h : c.isAsciiDigit = true) :
    isTextChar c = true ∧ isSpace c = false ∧ isGap c = false ∧ c ≠ '<' ∧ c ≠ '>' ∧ c ≠ '&' := by
  have hlt : c.val < 128 := by
    simp only [CodePoint.isAsciiDigit, CodePoint.within, Bool.and_eq_true,
      decide_eq_true_eq] at h
    omega
  obtain ⟨n, rfl⟩ := exists_ascii hlt
  revert n
  decide +kernel

/-- Digits are one piece of text. -/
theorem pieces_of_digits {d : CodePoint} {ds : Text} (offset : Nat)
    (h : ∀ c ∈ d :: ds, c.isAsciiDigit = true) :
    pieces offset (d :: ds)
      = [.plain (.leaf .text offset (offset + trimmedLength (d :: ds)))] := by
  obtain ⟨htext, hspace, hgap, hopen, -, hamp⟩ := isTextChar_of_isAsciiDigit (h d (by simp))
  have hrun : (d :: ds).takeWhile isTextChar = d :: ds :=
    List.takeWhile_eq_self_iff.2 fun c hc => (isTextChar_of_isAsciiDigit (h c hc)).1
  have hnext : nextPiece offset d ds
      = (.plain (.leaf .text offset (offset + trimmedLength (d :: ds))), (d :: ds).length) := by
    unfold nextPiece
    rw [leadingComment?_eq_none hgap hopen]
    simp only [if_neg hopen, if_neg hamp, if_pos htext, hrun]
  rw [pieces, if_neg (by simp [hspace]), hnext]
  simp [pieces]

/-- The text of a numbered reference. -/
def reference (digits : Text) : Text :=
  CodePoint.ofChar '&' :: CodePoint.ofChar '#' :: digits

theorem not_starts_of_digits {c d : CodePoint} {ds : Text} (hd : d.isAsciiDigit = true)
    (hc : c.isAsciiDigit = false) : Text.starts c (d :: ds) = false := by
  simp only [Text.starts, decide_eq_false_iff_not]
  rintro rfl
  rw [hd] at hc
  cases hc

/-- Five digits of a numbered reference make an entity. -/
theorem entityLength?_reference {first ds : Text} {d : CodePoint} (hfirst : first.length = 5)
    (h : ∀ c ∈ first ++ d :: ds, c.isAsciiDigit = true) :
    entityLength? (CodePoint.ofChar '#' :: (first ++ d :: ds)) = some 6 := by
  have hdigits : ((first ++ d :: ds).take 5).takeWhile CodePoint.isAsciiDigit = first := by
    rw [List.take_left' hfirst]
    exact List.takeWhile_eq_self_iff.2 fun c hc => h c (List.mem_append_left _ hc)
  cases first with
  | nil => cases hfirst
  | cons f fs =>
      have hf : f.isAsciiDigit = true := h f (by simp)
      have hrest : (f :: (fs ++ d :: ds)).drop (f :: fs).length = d :: ds :=
        List.drop_left' rfl
      have hclose : Text.starts ';' (d :: ds) = false :=
        not_starts_of_digits (h d (by simp)) (by decide)
      unfold entityLength?
      simp only [List.drop_succ_cons, List.drop_zero, hdigits]
      rw [if_pos (by simp [Text.starts]), List.cons_append,
        not_starts_of_digits hf (by decide), not_starts_of_digits hf (by decide), hrest, hclose,
        hfirst]
      rfl

/-- A numbered reference is an entity of five digits, and text. -/
theorem pieces_reference {first ds : Text} {d : CodePoint} (hfirst : first.length = 5)
    (h : ∀ c ∈ first ++ d :: ds, c.isAsciiDigit = true) :
    pieces 0 (reference (first ++ d :: ds))
      = [Node.leaf .entity 0 7, .leaf .text 7 (7 + trimmedLength (d :: ds))].map .plain := by
  have hd : ∀ c ∈ d :: ds, c.isAsciiDigit = true := fun c hc => h c (List.mem_append_right _ hc)
  have hnext : nextPiece 0 '&' (CodePoint.ofChar '#' :: (first ++ d :: ds))
      = (.plain (.leaf .entity 0 7), 7) := by
    unfold nextPiece
    rw [leadingComment?_eq_none (by decide) (by simp)]
    simp [entityLength?_reference hfirst h]
  rw [reference, pieces, if_neg (by decide), hnext]
  simp only [List.drop_succ_cons]
  rw [List.drop_left' hfirst, pieces_of_digits _ hd]
  rfl

end Markup

namespace Template

namespace Source

/-- Markup of text alone is accepted. -/
theorem check_of_unmarked {s : Source} {nodes : List Markup.Node} {stop : Nat}
    (h : ∀ n ∈ nodes, n.IsText) : s.check (.branch .document 0 stop nodes) = .ok () := by
  have hwalk : Markup.Node.walk (nodes ++ []) = nodes := by
    rw [List.append_nil]
    exact Markup.Node.walk_of_childless fun n hn => (h n hn).childless
  have hstray : (Markup.Node.branch .document 0 stop nodes).findAll .strayEndTag = [] := by
    unfold Markup.Node.findAll
    rw [Markup.Node.walk]
    show List.filter _ (_ :: Markup.Node.walk (nodes ++ [])) = []
    rw [hwalk, List.filter_eq_nil_iff]
    intro n hn
    rcases List.mem_cons.1 hn with rfl | hn
    · simp [Markup.Node.branch]
    · rcases (h n hn).kind with hk | hk <;> simp [hk]
  have hflawed : (Markup.Node.branch .document 0 stop nodes).flawed = false := by
    show nodes.any (·.flawed) = false
    rw [List.any_eq_false]
    intro n hn
    rw [(h n hn).flawless]
    simp
  unfold check
  rw [hstray]
  simp [hflawed]

/-- Nodes of text alone interrupt no stretch of text. -/
theorem contentPassages_of_unmarked {s : Source} {nodes : List Markup.Node} (cursor stop : Nat)
    (h : ∀ n ∈ nodes, n.IsText) :
    s.contentPassages cursor stop nodes = [.stretch (Text.slice s.text cursor stop)] := by
  induction nodes with
  | nil => rw [contentPassages]
  | cons n nodes ih =>
      rw [contentPassages]
      rcases (h n (by simp)).kind with hk | hk
      · simp only [hk, isSkipped]
        exact ih fun m hm => h m (by simp [hm])
      · simp only [hk, isSkipped]
        exact ih fun m hm => h m (by simp [hm])

/-- A template of text alone oversteps exactly when it does as one stretch
of text. -/
theorem oversteps_of_unmarked {s : Source} {nodes : List Markup.Node} (hmask : mask s.text = s.text)
    (hstart : Markup.markupStart s.text = 0)
    (hpieces : Markup.pieces 0 s.text = nodes.map .plain) (h : ∀ n ∈ nodes, n.IsText) :
    s.Oversteps ↔ s.OverstepsAt (.stretch s.text) := by
  have hroot : Markup.parse (mask s.text) = .branch .document 0 s.text.length nodes := by
    rw [hmask, Markup.parse_of_plain hstart hpieces]
  have hpassages : s.passages = [.stretch s.text] := by
    unfold passages
    rw [hroot]
    show s.contentPassages 0 s.text.length nodes = _
    rw [contentPassages_of_unmarked 0 s.text.length h]
    simp [Text.slice]
  unfold Oversteps
  rw [hroot, check_of_unmarked h, hpassages, reaches_cons]
  simp

/-- A numbered reference with too many digits oversteps by itself. -/
theorem oversteps_reference {digits : Text} (path : Text)
    (h : ∀ c ∈ digits, c.isAsciiDigit = true) (hlen : maxIntegerDigits < digits.length) :
    Oversteps ⟨Markup.reference digits, path⟩ := by
  have hmask : mask (Markup.reference digits) = Markup.reference digits := by
    apply Mask.blankOut_of_unbracketed
    intro c hc
    rcases List.mem_cons.1 hc with rfl | hc
    · simp
    · rcases List.mem_cons.1 hc with rfl | hc
      · simp
      · obtain ⟨-, -, -, hopen, hclose, -⟩ := Markup.isTextChar_of_isAsciiDigit (h c hc)
        exact ⟨hopen, hclose⟩
  -- the entity takes five digits, and more than five are left
  obtain ⟨first, rest, hdigits, hfirst⟩ : ∃ first rest, digits = first ++ rest ∧ first.length = 5 :=
    ⟨digits.take 5, digits.drop 5, (List.take_append_drop 5 digits).symm, by
      rw [List.length_take]
      unfold maxIntegerDigits at hlen
      omega⟩
  cases rest with
  | nil =>
      rw [hdigits, List.append_nil, hfirst] at hlen
      exact absurd hlen (by decide)
  | cons d ds =>
      subst hdigits
      refine (oversteps_of_unmarked hmask rfl (Markup.pieces_reference hfirst h) ?_).2 ?_
      · intro n hn
        rcases List.mem_cons.1 hn with rfl | hn
        · exact ⟨.inr rfl, rfl, rfl⟩
        · rw [List.mem_singleton.1 hn]
          exact ⟨.inl rfl, rfl, rfl⟩
      · refine ⟨rfl, .inl ⟨[], _, rfl, first ++ d :: ds, [], ?_, h, hlen⟩⟩
        rw [List.append_nil]

end Source

end Template

end KeyHarvest
