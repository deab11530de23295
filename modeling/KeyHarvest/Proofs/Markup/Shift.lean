/-
Markup further to the right. A text that stands behind another one has the
same pieces as by itself, each as far to the right as the text stands
(`pieces_add`): readers use the offset of their text for nothing but the
spans of the nodes they make.

A text that begins with a byte order mark is read without it only where it
stands first. Elsewhere the mark is text, and joins the text that follows
(`pieces_markupStart`).
-/
import KeyHarvest.Markup.Nesting
import KeyHarvest.Proofs.Markup.Comment
import KeyHarvest.Proofs.Markup.Forest

namespace KeyHarvest.Markup

-- ============================================================== nodes

namespace Node

mutual

/-- The same node further to the right. -/
def shift (d : Nat) : Node → Node
  | ⟨kind, start, stop, flawed, children⟩ =>
      ⟨kind, start + d, stop + d, flawed, shiftAll d children⟩

/-- The same nodes further to the right. -/
def shiftAll (d : Nat) : List Node → List Node
  | [] => []
  | n :: ns => shift d n :: shiftAll d ns

end

variable {d : Nat}

theorem shiftAll_eq_map (d : Nat) (ns : List Node) : shiftAll d ns = ns.map (shift d) := by
  induction ns with
  | nil => rfl
  | cons n ns ih => rw [shiftAll, ih, List.map_cons]

@[simp] theorem shift_kind (n : Node) : (n.shift d).kind = n.kind := by cases n; rfl

@[simp] theorem shift_start (n : Node) : (n.shift d).start = n.start + d := by cases n; rfl

@[simp] theorem shift_stop (n : Node) : (n.shift d).stop = n.stop + d := by cases n; rfl

@[simp] theorem shift_flawed (n : Node) : (n.shift d).flawed = n.flawed := by cases n; rfl

@[simp] theorem shift_children (n : Node) : (n.shift d).children = n.children.map (shift d) := by
  cases n
  exact shiftAll_eq_map ..

@[simp] theorem shift_isFault (n : Node) : (n.shift d).isFault = n.isFault := by
  unfold isFault
  rw [shift_kind]

@[simp] theorem shift_leaf (kind : Kind) (start stop : Nat) :
    (leaf kind start stop).shift d = leaf kind (start + d) (stop + d) := rfl

@[simp] theorem shift_broken (kind : Kind) (start stop : Nat) :
    (broken kind start stop).shift d = broken kind (start + d) (stop + d) := rfl

@[simp] theorem shift_branch (kind : Kind) (start stop : Nat) (ns : List Node) :
    (branch kind start stop ns).shift d
      = branch kind (start + d) (stop + d) (ns.map (shift d)) := by
  unfold branch
  rw [shift, shiftAll_eq_map, List.any_map]
  congr 2
  funext n
  simp

theorem shift_zero (n : Node) : n.shift 0 = n := by
  have hall : ∀ ns : List Node, ns.map (shift 0) = ns := by
    intro ns
    induction ns using walk.induct with
    | case1 => rfl
    | case2 n ns ih =>
        rw [List.map_append] at ih
        have hparts := List.append_inj ih (by simp)
        obtain ⟨kind, start, stop, flawed, children⟩ := n
        rw [List.map_cons, hparts.2, shift, shiftAll_eq_map]
        rw [show children.map (shift 0) = children from hparts.1]
        rfl
  have hn := hall [n]
  rw [List.map_cons] at hn
  exact (List.cons.inj hn).1

theorem walk_map_shift (ns : List Node) : walk (ns.map (shift d)) = (walk ns).map (shift d) := by
  induction ns using walk.induct with
  | case1 => simp [walk]
  | case2 n ns ih =>
      rw [List.map_cons, walk, walk, List.map_cons, shift_children, ← List.map_append, ih]

theorem faults_map_shift (ns : List Node) :
    faults (ns.map (shift d)) = (faults ns).map (shift d) := by
  induction ns using faults.induct with
  | case1 => simp [faults]
  | case2 n ns hn ih =>
      rw [List.map_cons, faults, faults, shift_isFault, if_pos hn, if_pos hn, ih, List.map_cons]
  | case3 n ns hn hflawed ih =>
      rw [List.map_cons, faults, faults, shift_isFault, shift_flawed, if_neg hn, if_neg hn,
        if_pos hflawed, if_pos hflawed, shift_children, ← List.map_append, ih]
  | case4 n ns hn hflawed ih =>
      rw [List.map_cons, faults, faults, shift_isFault, shift_flawed, if_neg hn, if_neg hn,
        if_neg hflawed, if_neg hflawed, ih]

theorem child?_shift (n : Node) (kind : Kind) :
    (n.shift d).child? kind = (n.child? kind).map (shift d) := by
  unfold child?
  rw [shift_children, List.find?_map]
  congr 2
  funext m
  simp

end Node

-- ============================================================= pieces

namespace Piece

/-- The same piece further to the right. -/
def shift (d : Nat) : Piece → Piece
  | .plain node => .plain (node.shift d)
  | .opening name tight tag => .opening name tight (tag.shift d)
  | .complete name tight element => .complete name tight (element.shift d)
  | .raw name tight element => .raw name tight (element.shift d)
  | .closing name tight start stop label =>
      .closing name tight (start + d) (stop + d) (label.shift d)
  | .unfinished name tight place tag => .unfinished name tight (place + d) (tag.shift d)
  | .final node => .final (node.shift d)

end Piece

/-- The same end of a tag further to the right. -/
def TagEnd.shift (d : Nat) : TagEnd → TagEnd
  | .opened => .opened
  | .selfClosed => .selfClosed
  | .cut place => .cut (place + d)
  | .broken => .broken

/-- The same body of a tag further to the right. -/
def TagBody.shift (d : Nat) (b : TagBody) : TagBody :=
  ⟨b.children.map (Node.shift d), b.ending.shift d, b.length⟩

/-- A body and what stands in front of it move together. -/
theorem TagBody.shift_after (d : Nat) (nodes : List Node) (n : Nat) (b : TagBody) :
    (b.after nodes n).shift d = (b.shift d).after (nodes.map (Node.shift d)) n := by
  unfold TagBody.after TagBody.shift
  rw [List.map_append]

variable (d : Nat)

/-- A length is added to a shifted offset as to the offset itself. -/
private theorem shifted_add (a k : Nat) : a + d + k = a + k + d := Nat.add_right_comm a d k

/-- A value that is read further to the right is the same value moved. -/
theorem value?_add (offset : Nat) (t : Text) :
    value? (offset + d) t = (value? offset t).map fun r => (r.1.shift d, r.2) := by
  cases t with
  | nil => rfl
  | cons q cs =>
      unfold value?
      simp only [shifted_add d]
      split
      · split <;> rfl
      · split <;> rfl

/-- An attribute that is read further to the right is the same one moved. -/
theorem readAttribute_add (offset : Nat) (t : Text) :
    readAttribute (offset + d) t = (readAttribute offset t).map fun r => (r.1.shift d, r.2) := by
  unfold readAttribute
  simp only [shifted_add d, value?_add d]
  split
  · cases value? (offset + _) _ with
    | none => rfl
    | some r => simp [Except.map]
  · simp [Except.map]

/-- A broken body that is read further to the right is the same one moved.
-/
theorem brokenBody_add (offset : Nat) (t : Text) :
    brokenBody (offset + d) t = (brokenBody offset t).shift d := by
  unfold brokenBody
  simp only [shifted_add d]
  split <;> rfl

/-- The body of a tag that is read further to the right is the same one
moved. -/
theorem tagBody_add (last offset : Nat) (t : Text) :
    tagBody (last + d) (offset + d) t = (tagBody last offset t).shift d := by
  induction last, offset, t using tagBody.induct with
  | case1 => rw [tagBody, tagBody]; rfl
  | case2 last offset c cs skip hskip ih =>
      rw [tagBody, tagBody, if_pos hskip, if_pos hskip, shifted_add, ih, TagBody.shift_after]
      rfl
  | case3 last offset c cs skip gap hskip hself =>
      rw [tagBody, tagBody, if_neg hskip, if_neg hskip, if_pos hself, if_pos hself]
      rfl
  | case4 last offset c cs skip gap hskip hself hspace n ih =>
      rw [tagBody, tagBody, if_neg hskip, if_neg hskip, if_neg hself, if_neg hself, if_pos hspace,
        if_pos hspace]
      dsimp only
      rw [shifted_add, ih, TagBody.shift_after]
      rfl
  | case5 last offset cs skip gap hskip hself hspace =>
      rw [tagBody, tagBody, if_neg hskip, if_neg hskip, if_neg hself, if_neg hself, if_neg hspace,
        if_neg hspace, if_pos rfl, if_pos rfl]
      rfl
  | case6 last offset c cs skip gap hskip hself hspace hclose hattr node n hread ih =>
      rw [tagBody, tagBody, if_neg hskip, if_neg hskip, if_neg hself, if_neg hself, if_neg hspace,
        if_neg hspace, if_neg hclose, if_neg hclose, if_pos hattr, if_pos hattr, readAttribute_add,
        hread]
      show TagBody.after _ _ _ = TagBody.shift d (TagBody.after _ _ _)
      rw [shifted_add, ih, TagBody.shift_after]
      rfl
  | case7 last offset c cs skip gap hskip hself hspace hclose hattr k hread =>
      rw [tagBody, tagBody, if_neg hskip, if_neg hskip, if_neg hself, if_neg hself, if_neg hspace,
        if_neg hspace, if_neg hclose, if_neg hclose, if_pos hattr, if_pos hattr, readAttribute_add,
        hread]
      show TagBody.after _ _ _ = TagBody.shift d (TagBody.after _ _ _)
      rw [shifted_add, brokenBody_add, TagBody.shift_after]
      rfl
  | case8 last offset c cs skip gap hskip hself hspace hclose hattr =>
      rw [tagBody, tagBody, if_neg hskip, if_neg hskip, if_neg hself, if_neg hself, if_neg hspace,
        if_neg hspace, if_neg hclose, if_neg hclose, if_neg hattr, if_neg hattr, brokenBody_add]

-- =============================================================== tags

/-- What cannot be read moves with its place. -/
theorem unreadable_add (offset : Nat) (t : Text) :
    unreadable (offset + d) t = Prod.map (Piece.shift d) id (unreadable offset t) := by
  unfold unreadable
  rw [shifted_add]
  rfl

/-- An end tag that is read further to the right is the same one moved. -/
theorem endTag?_add (offset : Nat) (t : Text) :
    endTag? (offset + d) t
      = (endTag? offset t).map fun r => (r.1, r.2.1, r.2.2.1.shift d, r.2.2.2) := by
  unfold endTag?
  simp only [shifted_add d]
  split <;> rfl

theorem rawElement?_shift (kind : Kind) (name : String) (tag : Node) (t : Text) :
    rawElement? kind name (tag.shift d) t
      = (rawElement? kind name tag t).map fun r => (r.1.shift d, r.2) := by
  unfold rawElement?
  dsimp only
  cases rawLength? _ 0 0 _ t with
  | none => rfl
  | some n =>
      simp only [Node.shift_stop, Node.shift_start, shifted_add d, endTag?_add d, Option.bind_some,
        bind]
      cases endTag? (tag.stop + n + 2) (t.drop (n + 2)) with
      | none => rfl
      | some r =>
          simp only [Option.map_some, Option.bind_some]
          split
          · simp
          · rfl

/-- A start tag that is read further to the right is the same piece moved.
-/
theorem startTag_add (offset : Nat) (t : Text) :
    startTag (offset + d) t = Prod.map (Piece.shift d) id (startTag offset t) := by
  unfold startTag
  simp only [shifted_add d]
  split
  · exact unreadable_add d offset _
  · simp only [tagBody_add d]
    generalize tagBody _ _ _ = body
    obtain ⟨children, ending, length⟩ := body
    generalize TagName.ofText _ = name
    cases ending with
    | broken => simp [TagBody.shift, TagEnd.shift, Piece.shift]
    | cut place =>
        cases rawKind? name with
        | none => simp [TagBody.shift, TagEnd.shift, Piece.shift]
        | some r => exact unreadable_add d offset _
    | selfClosed =>
        cases rawKind? name with
        | none => simp [TagBody.shift, TagEnd.shift, Piece.shift]
        | some r => exact unreadable_add d offset _
    | opened =>
        cases rawKind? name with
        | none => simp [TagBody.shift, TagEnd.shift, Piece.shift]
        | some r =>
            simp only [TagBody.shift, TagEnd.shift, ← Node.shift_leaf, ← List.map_cons,
              ← Node.shift_branch, rawElement?_shift d]
            cases rawElement? r.2 r.1 _ _ with
            | none => exact unreadable_add d offset _
            | some element => rfl

/-- The pieces of a bracket move with it. -/
theorem bracketPiece_add (offset : Nat) (t : Text) :
    bracketPiece (offset + d) t = Prod.map (Piece.shift d) id (bracketPiece offset t) := by
  unfold bracketPiece
  simp only [shifted_add d, endTag?_add d, unreadable_add d, startTag_add d]
  split
  · cases doctypeLength? _ <;> rfl
  · split
    · cases endTag? _ _ <;> rfl
    · rfl

/-- Every piece that is read further to the right is the same one moved. -/
theorem nextPiece_add (offset : Nat) (c : CodePoint) (cs : Text) :
    nextPiece (offset + d) c cs = Prod.map (Piece.shift d) id (nextPiece offset c cs) := by
  have hbroken : brokenText (offset + d) cs
      = Prod.map (Piece.shift d) id (brokenText offset cs) := by
    unfold brokenText
    simp only [shifted_add d]
    rfl
  unfold nextPiece
  simp only [shifted_add d, bracketPiece_add d, hbroken]
  cases leadingComment? (c :: cs) with
  | some r => rfl
  | none =>
      dsimp only
      split
      · rfl
      · split
        · cases entityLength? cs <;> rfl
        · split <;> rfl

/-- A text has the same pieces wherever it stands. -/
theorem pieces_add (offset : Nat) (t : Text) :
    pieces (offset + d) t = (pieces offset t).map (Piece.shift d) := by
  induction offset, t using pieces.induct with
  | case1 => rw [pieces, pieces]; rfl
  | case2 offset c cs hspace ih =>
      rw [pieces, pieces, if_pos hspace, if_pos hspace, shifted_add, ih]
  | case3 offset c cs hspace node n hnext =>
      rw [pieces, pieces, if_neg hspace, if_neg hspace, nextPiece_add, hnext]
      rfl
  | case4 offset c cs hspace piece n hfinal hnext ih =>
      have hnext' : nextPiece (offset + d) c cs = (piece.shift d, n) := by
        rw [nextPiece_add, hnext]
        rfl
      have hfinal' : ∀ node, piece.shift d ≠ .final node := by
        intro node
        cases piece with
        | final node => exact absurd rfl (hfinal node)
        | _ => simp [Piece.shift]
      rw [pieces_of_nextPiece hspace hnext hfinal, pieces_of_nextPiece hspace hnext' hfinal',
        List.map_cons, ← ih, shifted_add d, shifted_add d]

-- ==================================================== byte order mark

/-- A comment behind blanks is the comment itself. -/
theorem pieces_of_leadingComment (offset : Nat) {gap n : Nat} {c : CodePoint} {cs : Text}
    (hspace : isSpace c ≠ true) (h : leadingComment? (c :: cs) = some (gap, n)) :
    pieces offset (c :: cs)
      = .plain (.leaf .comment (offset + gap) (offset + gap + n))
        :: pieces (offset + gap + n) ((c :: cs).drop (gap + n)) := by
  obtain ⟨-, hn⟩ := leadingComment?_eq_some.1 h
  have hpos := (commentLength?_le hn).1
  have hnext : nextPiece offset c cs
      = (.plain (.leaf .comment (offset + gap) (offset + gap + n)), gap + n) := by
    unfold nextPiece
    rw [h]
  have hlength : gap + n = gap + n - 1 + 1 := by omega
  rw [pieces_of_nextPiece hspace hnext nofun, hlength, List.drop_succ_cons]
  congr 2
  omega

/-- Text that no comment follows at once is one piece. -/
theorem pieces_of_text (offset : Nat) {c : CodePoint} {cs : Text} (hspace : isSpace c ≠ true)
    (htext : isTextChar c = true) (hlead : leadingComment? (c :: cs) = none) :
    ∃ stop, pieces offset (c :: cs)
      = .plain (.leaf .text offset stop)
        :: pieces (offset + ((c :: cs).takeWhile isTextChar).length)
            ((c :: cs).drop ((c :: cs).takeWhile isTextChar).length) := by
  have hopen : c ≠ '<' := by rintro rfl; revert htext; decide
  have hamp : c ≠ '&' := by rintro rfl; revert htext; decide
  have hnext : nextPiece offset c cs
      = (.plain (.leaf .text offset (offset + trimmedLength ((c :: cs).takeWhile isTextChar))),
        ((c :: cs).takeWhile isTextChar).length) := by
    unfold nextPiece
    rw [hlead]
    simp only [if_neg hopen, if_neg hamp, if_pos htext]
  have hrun : ((c :: cs).takeWhile isTextChar).length
      = ((c :: cs).takeWhile isTextChar).length - 1 + 1 := by
    rw [List.takeWhile_cons_of_pos htext, List.length_cons]
    rfl
  refine ⟨offset + trimmedLength ((c :: cs).takeWhile isTextChar), ?_⟩
  rw [pieces_of_nextPiece hspace hnext (by rintro _ ⟨⟩), hrun, List.drop_succ_cons, Nat.add_assoc,
    Nat.add_comm 1]
  rfl

/-- The text at the start is a piece, if it is not blank, and the other
pieces are those behind it. -/
theorem pieces_behind_text (offset : Nat) (t : Text) :
    ∃ texts : List Node, (∀ n ∈ texts, ∃ start stop, n = .leaf .text start stop)
      ∧ pieces offset t = texts.map .plain
        ++ pieces (offset + (t.takeWhile isTextChar).length)
            (t.drop (t.takeWhile isTextChar).length) := by
  induction t generalizing offset with
  | nil => exact ⟨[], nofun, rfl⟩
  | cons c cs ih =>
      by_cases htext : isTextChar c = true
      case neg =>
        refine ⟨[], nofun, ?_⟩
        rw [List.takeWhile_cons_of_neg htext]
        rfl
      by_cases hspace : isSpace c = true
      · obtain ⟨texts, htexts, hpieces⟩ := ih (offset + 1)
        refine ⟨texts, htexts, ?_⟩
        rw [pieces, if_pos hspace, hpieces, List.takeWhile_cons_of_pos htext, List.length_cons,
          List.drop_succ_cons, Nat.add_assoc, Nat.add_comm 1]
      cases hlead : leadingComment? (c :: cs) with
      | some lead =>
          -- blanks alone lead up to the comment, which begins where the text ends
          obtain ⟨gap, n⟩ := lead
          obtain ⟨hgap, hn⟩ := leadingComment?_eq_some.1 hlead
          obtain ⟨rest, hrest⟩ := starts_of_commentLength? hn
          have hrun : ((c :: cs).takeWhile isTextChar).length = gap := by
            rw [takeWhile_isTextChar_of_comment (hgap ▸ hrest), hgap]
            rfl
          have hlead' : leadingComment? (CodePoint.ofChar '<' :: rest) = some (0, n) :=
            leadingComment?_eq_some.2 ⟨rfl, hrest ▸ hn⟩
          refine ⟨[], nofun, ?_⟩
          rw [pieces_of_leadingComment _ hspace hlead, hrun, hrest, List.map_nil, List.nil_append,
            pieces_of_leadingComment _ (by decide) hlead', ← hrest, List.drop_drop]
          simp
      | none =>
          obtain ⟨stop, hpieces⟩ := pieces_of_text offset hspace htext hlead
          exact ⟨[.leaf .text offset stop], by simp, hpieces⟩

/-- The pieces of a text that does not stand first. They are those behind
its byte order mark, if it has one, up to text in front of them; and the
mark itself is such text. -/
theorem pieces_markupStart (offset : Nat) (t : Text) :
    ∃ (texts texts' : List Node) (rest : List Piece),
      (∀ n ∈ texts ++ texts', ∃ start stop, n = .leaf .text start stop)
      ∧ (texts' = [] → texts = [])
      ∧ pieces (offset + markupStart t) (t.drop (markupStart t)) = texts.map .plain ++ rest
      ∧ pieces offset t = texts'.map .plain ++ rest := by
  unfold markupStart
  split
  · rename_i hmark
    obtain ⟨cs, rfl⟩ : ∃ cs, t = CodePoint.ofNat 0xFEFF :: cs := by
      cases t with
      | nil => cases hmark
      | cons c cs =>
          obtain rfl : c = .ofNat 0xFEFF := by simpa [Text.starts] using hmark
          exact ⟨cs, rfl⟩
    obtain ⟨stop, hself⟩ := @pieces_of_text offset (.ofNat 0xFEFF) cs (by decide)
      (by decide) (leadingComment?_eq_none (by decide) (by decide))
    rw [List.takeWhile_cons_of_pos (by decide), List.length_cons, List.drop_succ_cons,
      Nat.add_comm _ 1, ← Nat.add_assoc] at hself
    obtain ⟨texts, htexts, hpieces⟩ := pieces_behind_text (offset + 1) cs
    refine ⟨texts, [.leaf .text offset stop], _, ?_, by rintro ⟨⟩, hpieces, hself⟩
    intro n hn
    rcases List.mem_append.1 hn with hn | hn
    · exact htexts n hn
    · exact ⟨_, _, List.mem_singleton.1 hn⟩
  · exact ⟨[], [], pieces offset t, List.forall_mem_nil _, fun _ => rfl, rfl, rfl⟩

end KeyHarvest.Markup
