/-
The tree of a text behind another one. When nothing is open where a text
begins, its nodes are those of its own tree, further to the right, behind
the nodes of what stands before it (`finish_behind`). A byte order mark at
its start is text then; no other node is added or lost.

What stands before can be a sealed text (`children_append`) or a comment
(`children_of_comment`).
-/
import KeyHarvest.Proofs.Markup.Extension

namespace KeyHarvest.Markup

open Node (faults walk)

/-- The stack at the end of a text. -/
def nest (t : Text) : Nest :=
  (pieces (markupStart t) (t.drop (markupStart t))).foldl Nest.step ⟨[], []⟩

/-- The children of a document are those the builder ends with. -/
theorem children_parse (t : Text) : (parse t).children = (nest t).finish t := rfl

theorem markupStart_le (t : Text) : markupStart t ≤ t.length := by
  unfold markupStart
  split
  · rename_i hmark
    exact starts_pos hmark
  · exact Nat.zero_le _

/-- Every piece of the markup is sound. -/
theorem pieces_sound_nest (t : Text) :
    ∀ p ∈ pieces (markupStart t) (t.drop (markupStart t)), p.Sound t.length := by
  have hsound := pieces_sound (markupStart t) (t.drop (markupStart t))
  rwa [List.length_drop, Nat.add_sub_cancel' (markupStart_le t)] at hsound

/-- What the builder holds is sound. -/
theorem nest_sound (t : Text) : (nest t).Sound t.length := by
  refine Nest.Sound.foldl ?_ (pieces_sound_nest t)
  intro n hn
  cases hn

/-- A document without a flag has no malformed place. -/
theorem faults_of_flawless {t : Text} (h : (parse t).flawed = false) :
    faults (parse t).children = [] := by
  apply Node.faults_of_unflagged
  intro n hn
  have hflawed : n.flawed = false := by
    simpa using List.any_eq_false.1 (show (parse t).children.any (·.flawed) = false from h) n hn
  refine ⟨?_, hflawed⟩
  by_cases hfault : n.isFault = true
  · rw [Nest.flawed_of_finish (nest_sound t) (Nat.le_refl _) hn hfault] at hflawed
    cases hflawed
  · simpa using hfault

/-- A document without malformed places is made of flawless pieces. -/
theorem flawless_of_faults {t : Text} (h : faults (parse t).children = []) :
    ∀ p ∈ pieces (markupStart t) (t.drop (markupStart t)), p.Flawless :=
  Nest.flawless_of_foldl (pieces_sound_nest t)
    (Nest.not_isFault_of_finish (nest_sound t) (Nat.le_refl _) h).2

/-- What opens a comment that does not end is malformed. -/
theorem faults_of_opening {t : Text} (hopening : commentOpening <+: t)
    (h : commentLength? t = none) : faults (parse t).children ≠ [] := by
  obtain ⟨body, rfl⟩ := hopening
  have hlead : leadingComment? (commentOpening ++ body) = none := by
    unfold leadingComment?
    rw [show gapLength (commentOpening ++ body) = 0 from rfl, List.drop_zero, h]
    rfl
  -- a dash is not the first letter of the word that a doctype begins with
  have hdoctype : doctypeLength? (CodePoint.ofChar '-' :: CodePoint.ofChar '-' :: body) = none := by
    have hcomments : commentsLength (CodePoint.ofChar '-' :: CodePoint.ofChar '-' :: body) = 0 := by
      rw [commentsLength, leadingComment?_eq_none (by decide) (by decide)]
    have hgap : beforeToken (CodePoint.ofChar '-' :: CodePoint.ofChar '-' :: body) = 0 := by
      unfold beforeToken
      rw [hcomments]
      rfl
    have hword : ((CodePoint.ofChar '-' :: CodePoint.ofChar '-' :: body).take 7).map CodePoint.upper
        ≠ Text.ofString "DOCTYPE" := by
      intro hword
      exact absurd (List.cons.inj hword).1 (by decide)
    unfold doctypeLength?
    dsimp only
    rw [hgap, List.drop_zero, decide_eq_false hword]
    rfl
  -- so the opening is no comment and no doctype, and all of the text is malformed
  have hnext : nextPiece 0 (CodePoint.ofChar '<')
        (CodePoint.ofChar '!' :: CodePoint.ofChar '-' :: CodePoint.ofChar '-' :: body)
      = unreadable 0 (commentOpening ++ body) := by
    unfold nextPiece
    rw [show leadingComment? (CodePoint.ofChar '<' :: CodePoint.ofChar '!' :: CodePoint.ofChar '-'
      :: CodePoint.ofChar '-' :: body) = none from hlead]
    dsimp only
    rw [if_pos rfl]
    unfold bracketPiece
    rw [if_pos (by simp [Text.starts]), List.drop_succ_cons, List.drop_zero, hdoctype]
    rfl
  intro hfaults
  refine flawless_of_faults hfaults (unreadable 0 (commentOpening ++ body)).1 ?_
  show _ ∈ pieces 0 (CodePoint.ofChar '<' :: CodePoint.ofChar '!' :: CodePoint.ofChar '-'
    :: CodePoint.ofChar '-' :: body)
  rw [pieces, if_neg (by decide), hnext]
  exact List.mem_singleton.2 rfl

theorem Piece.shift_zero (p : Piece) : p.shift 0 = p := by
  cases p <;> simp [Piece.shift, Node.shift_zero]

/-- A node of text. -/
def Node.IsTextLeaf (n : Node) : Prop := ∃ start stop, n = .leaf .text start stop

/-- The nodes of a text behind others, where nothing is open. Its own tree
has the same nodes, up to text in front. -/
theorem finish_behind (pre : Text) {t : Text} (base : List Node) (h : faults (parse t).children = []) :
    ∃ texts texts' ns : List Node, (∀ n ∈ texts ++ texts', n.IsTextLeaf)
      ∧ (parse t).children = texts ++ ns
      ∧ ((pieces pre.length t).foldl Nest.step ⟨[], base⟩).finish (pre ++ t)
        = base.reverse ++ (texts' ++ ns.map (Node.shift pre.length)) := by
  obtain ⟨texts, texts', rest, htexts, hnil, hown, hbehind⟩ := pieces_markupStart 0 t
  have hshift : ∀ d base, (rest.map (Piece.shift d)).foldl Nest.step ⟨[], base⟩
      = (rest.foldl Nest.step ⟨[], []⟩).onto d base := fun d base =>
    Nest.foldl_onto (d := d) ⟨[], []⟩ rest
  -- the stacks of both readings come from the pieces that they share
  have hnest : nest t = (rest.foldl Nest.step ⟨[], []⟩).onto 0 texts.reverse := by
    have hsame : rest.map (Piece.shift 0) = rest := by
      rw [show Piece.shift 0 = id from funext Piece.shift_zero, List.map_id]
    unfold nest
    rw [Nat.zero_add] at hown
    rw [hown, List.foldl_append, Nest.foldl_plain, List.append_nil, ← hshift, hsame]
  have hstack : (pieces pre.length t).foldl Nest.step ⟨[], base⟩
      = (rest.foldl Nest.step ⟨[], []⟩).onto pre.length
        ((texts'.map (Node.shift pre.length)).reverse ++ base) := by
    have hplain : (texts'.map Piece.plain).map (Piece.shift pre.length)
        = (texts'.map (Node.shift pre.length)).map Piece.plain := by
      rw [List.map_map, List.map_map]
      rfl
    rw [← Nat.zero_add pre.length, pieces_add, Nat.zero_add, hbehind, List.map_append, hplain,
      List.foldl_append, Nest.foldl_plain, hshift]
  generalize rest.foldl Nest.step ⟨[], []⟩ = s at hnest hstack
  have hbare : ¬ (nest t).Bare t :=
    (Nest.not_isFault_of_finish (nest_sound t) (Nat.le_refl _) h).1
  have hbare' : ¬ ((pieces pre.length t).foldl Nest.step ⟨[], base⟩).Bare (pre ++ t) := by
    rw [hstack]
    rw [hnest] at hbare
    refine fun hnot => hbare (Nest.Bare.of_onto ?_ hnot)
    intro hall
    cases texts' with
    | nil => rw [hnil rfl]; rfl
    | cons m ms =>
        obtain ⟨start, stop, rfl⟩ := htexts m (by simp)
        simp [Node.leaf] at hall
  refine ⟨texts, texts'.map (Node.shift pre.length), s.leave t, ?_, ?_, ?_⟩
  · intro n hn
    rcases List.mem_append.1 hn with hn | hn
    · exact htexts n (List.mem_append_left _ hn)
    · obtain ⟨m, hm, rfl⟩ := List.mem_map.1 hn
      obtain ⟨start, stop, rfl⟩ := htexts m (List.mem_append_right _ hm)
      exact ⟨_, _, rfl⟩
  · have hleave : (s.onto 0 texts.reverse).leave t
        = texts.reverse.reverse ++ (s.leave t).map (Node.shift 0) := Nest.leave_onto [] t s
    rw [children_parse, Nest.finish_of_not_bare hbare, hnest, hleave, List.reverse_reverse,
      show Node.shift 0 = id from funext Node.shift_zero, List.map_id]
  · rw [Nest.finish_of_not_bare hbare', hstack, Nest.leave_onto, List.reverse_append,
      List.reverse_reverse, List.append_assoc]

/-- The nodes of a sealed text that ends with an end tag, and of what stands
behind it. -/
theorem children_append {a b : Text} {e z : Node} (hsealed : Sealed b a)
    (ha : faults (parse a).children = []) (hb : faults (parse b).children = [])
    (he : (parse a).children.getLast? = some e) (hz : e.children.getLast? = some z)
    (hkind : z.kind = .endTag) :
    (∀ n ∈ (parse a).children, Node.AllSound a.length [n] ∧ n.flawed = false)
    ∧ ∃ texts texts' ns : List Node, (∀ n ∈ texts ++ texts', n.IsTextLeaf)
      ∧ (parse b).children = texts ++ ns
      ∧ (parse (a ++ b)).children
        = (parse a).children ++ (texts' ++ ns.map (Node.shift a.length)) := by
  have hframes := Nest.frames_of_endTag (nest_sound a) (Nat.le_refl _) ha he hz hkind
  have hfault := (Nest.not_isFault_of_finish (nest_sound a) (Nat.le_refl _) ha).2
  have hflawless := flawless_of_faults ha
  -- the text ends with an end tag, so nothing is open there
  obtain ⟨finished, hnest⟩ : ∃ finished, nest a = ⟨[], finished⟩ := by
    cases hcases : nest a with
    | mk frames finished =>
        rw [hcases] at hframes
        exact ⟨finished, by rw [show frames = [] from hframes]⟩
  have hchildren : (parse a).children = finished.reverse := by
    rw [children_parse, hnest, Nest.finish_of_closed]
  refine ⟨?_, ?_⟩
  · intro n hn
    have hmem : n ∈ (nest a).nodes := by
      rw [hchildren, List.mem_reverse] at hn
      rw [hnest]
      exact hn
    have hsound := (nest_sound a n hmem).1
    refine ⟨hsound, Node.flawless_of_not_isFault hsound ?_ n (by simp)⟩
    exact fun m hm => hfault m (Node.mem_walk.2 ⟨n, hmem, hm⟩)
  · obtain ⟨texts, texts', ns, htexts, hown, hbehind⟩ := finish_behind a finished hb
    refine ⟨texts, texts', ns, htexts, hown, ?_⟩
    have hstart : markupStart (a ++ b) = markupStart a := by
      unfold markupStart
      rw [hsealed.ends.starts_append]
    have hlt : markupStart a < a.length := by
      unfold markupStart
      split
      · rename_i hmark
        exact hsealed.succ_lt_of_starts hsealed.ends.pos hmark (by decide)
      · exact hsealed.ends.pos
    -- the pieces of both texts are those of the first and then, moved, those of the second
    have hall : nest (a ++ b) = (pieces a.length b).foldl Nest.step (nest a) := by
      unfold nest
      rw [hstart, List.drop_append_of_le_length (Nat.le_of_lt hlt),
        pieces_append _ (.inr (hsealed.drop hlt)) hflawless, List.foldl_append, List.length_drop,
        Nat.add_sub_cancel' (Nat.le_of_lt hlt)]
    rw [children_parse, hall, hnest, hbehind, hchildren]

/-- The nodes of a text behind a comment. -/
theorem children_of_comment {a b : Text} (ha : commentLength? a = some a.length)
    (hb : faults (parse b).children = []) :
    ∃ texts texts' ns : List Node, (∀ n ∈ texts ++ texts', n.IsTextLeaf)
      ∧ (parse b).children = texts ++ ns
      ∧ (parse (a ++ b)).children
        = .leaf .comment 0 a.length :: (texts' ++ ns.map (Node.shift a.length)) := by
  obtain ⟨texts, texts', ns, htexts, hown, hbehind⟩ :=
    finish_behind a [.leaf .comment 0 a.length] hb
  refine ⟨texts, texts', ns, htexts, hown, ?_⟩
  have hall : nest (a ++ b) = (pieces a.length b).foldl Nest.step
      ⟨[], [.leaf .comment 0 a.length]⟩ := by
    have hlength := commentLength?_append b ha
    obtain ⟨cs, hcs⟩ := starts_of_commentLength? hlength
    have hstart : markupStart (a ++ b) = 0 := by
      unfold markupStart
      rw [hcs]
      rfl
    have hlead : leadingComment? (CodePoint.ofChar '<' :: cs) = some (0, a.length) :=
      leadingComment?_eq_some.2 ⟨rfl, by rw [← hcs]; exact hlength⟩
    have hpieces := pieces_of_leadingComment 0 (by decide) hlead
    rw [← hcs, Nat.zero_add, Nat.zero_add, List.drop_left] at hpieces
    unfold nest
    rw [hstart, List.drop_zero, hpieces]
    rfl
  rw [children_parse, hall, hbehind]
  rfl

end KeyHarvest.Markup
