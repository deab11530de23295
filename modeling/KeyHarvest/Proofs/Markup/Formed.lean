/-
What pieces are made of. Only a tag that is closed in itself makes an
element by itself; the nodes of all other pieces have no elements in them.
The name that a start tag opens an element with is the name that stands in
it (`pieces_formed`), in the masked text and in the text alike
(`label_mask`): masking leaves spaces behind, and those end a name.
-/
import KeyHarvest.Markup.Nesting
import KeyHarvest.Proofs.Markup.Coverage
import KeyHarvest.Proofs.Markup.Extent

namespace KeyHarvest.Markup

open Node (walk walk_singleton mem_walk)

-- =========================================================== elements

/-- A node that is no element and has none below it. -/
def Node.Elementless (n : Node) : Prop := ∀ m ∈ walk [n], m.kind ≠ .element

theorem Node.Elementless.kind {n : Node} (h : n.Elementless) : n.kind ≠ .element :=
  h n (Node.mem_walk_of_mem (List.mem_singleton.2 rfl))

/-- A node is without elements when it is none and its children are without
them. -/
theorem elementless_of_children {n : Node} (hkind : n.kind ≠ .element)
    (h : ∀ c ∈ n.children, c.Elementless) : n.Elementless := by
  intro m hm
  rw [walk_singleton] at hm
  rcases List.mem_cons.1 hm with rfl | hm
  · exact hkind
  · obtain ⟨c, hc, hm⟩ := mem_walk.1 hm
    exact h c hc m hm

theorem elementless_leaf {kind : Kind} {start stop : Nat} (h : kind ≠ .element) :
    (Node.leaf kind start stop).Elementless := elementless_of_children h nofun

theorem elementless_fault (start stop : Nat) : (Node.broken .fault start stop).Elementless :=
  elementless_of_children nofun nofun

theorem elementless_branch {kind : Kind} {start stop : Nat} {ns : List Node} (hkind : kind ≠ .element)
    (h : ∀ c ∈ ns, c.Elementless) : (Node.branch kind start stop ns).Elementless :=
  elementless_of_children hkind h

-- ============================================================= pieces

/-- The name that stands in a tag. -/
def Node.label (t : Text) (tag : Node) : Text :=
  ((tag.child? .tagName).map fun n => Text.slice t n.start n.stop).getD []

/-- What the nodes of a piece of a text are. -/
def Piece.Formed (t : Text) : Piece → Prop
  | .plain node => node.Elementless
  | .opening name _ tag => tag.kind = .startTag ∧ tag.Elementless
      ∧ name = TagName.ofText (tag.label t) ∧ ∀ c ∈ tag.label t, isTagChar c = true
  | .complete _ _ element => ∃ tag, element.kind = .element ∧ element.children = [tag]
      ∧ tag.kind = .selfClosingTag ∧ tag.Elementless
  | .raw _ _ element => (element.kind = .script ∨ element.kind = .style) ∧ element.Elementless
  | .closing _ _ _ _ label => label.Elementless
  | .unfinished _ _ _ tag => tag.Elementless
  | .final node => node.Elementless

-- ============================================================== names

/-- The name in the node of a start tag is the name that is written. -/
theorem label_tagNode {t cs : Text} {offset : Nat} (h : t.drop (offset + 1) = cs) (kind : Kind) :
    (tagNode offset cs kind).label t = tagLabel cs := by
  have hfirst : (tagNode offset cs kind).child? .tagName
      = some (.leaf .tagName (offset + 1 + beforeName cs) (offset + 1 + headLength cs)) := rfl
  rw [Node.label, hfirst]
  show Text.slice t (offset + 1 + beforeName cs) (offset + 1 + headLength cs) = tagLabel cs
  have hbegins : tagLabel cs <+: cs.drop (beforeName cs) := List.takeWhile_prefix isTagChar
  rw [Text.slice, ← List.drop_drop, h, headLength]
  rw [show offset + 1 + (beforeName cs + (tagLabel cs).length) - (offset + 1 + beforeName cs)
    = (tagLabel cs).length by omega]
  exact (List.prefix_iff_eq_take.1 hbegins).symm

/-- A name has nothing but the code points of a name. -/
theorem isTagChar_of_mem_tagLabel {t : Text} : ∀ c ∈ tagLabel t, isTagChar c = true :=
  fun _ hc => List.mem_takeWhile_imp hc

/-- What stands between two places is the same with and without the mask
if there are no spaces in it. -/
theorem slice_mask {t : Text} {a b : Nat}
    (h : ∀ c ∈ Text.slice (mask t) a b, c ≠ CodePoint.ofChar ' ') :
    Text.slice (mask t) a b = Text.slice t a b := by
  apply List.ext_getElem?
  intro i
  unfold Text.slice at h ⊢
  rw [List.getElem?_take, List.getElem?_take]
  by_cases hi : i < b - a
  · rw [if_pos hi, if_pos hi, List.getElem?_drop, List.getElem?_drop]
    by_contra hne
    have hmasked := (getElem?_mask t (a + i)).1.1 hne
    have hspace := (getElem?_mask t (a + i)).2 hmasked
    refine h (CodePoint.ofChar ' ') ?_ rfl
    refine List.mem_of_getElem? (i := i) ?_
    rw [List.getElem?_take, if_pos hi, List.getElem?_drop, hspace]
  · rw [if_neg hi, if_neg hi]

/-- A name of a tag is the same with and without the mask. -/
theorem label_mask {t : Text} {tag : Node} (h : ∀ c ∈ tag.label (mask t), isTagChar c = true) :
    tag.label (mask t) = tag.label t := by
  unfold Node.label at h ⊢
  cases hname : tag.child? .tagName with
  | none => rfl
  | some n =>
      rw [hname] at h
      show Text.slice (mask t) n.start n.stop = Text.slice t n.start n.stop
      refine slice_mask fun c hc hspace => ?_
      have htag := h c hc
      rw [hspace] at htag
      exact absurd htag (by decide)

/-- What is formed over the masked text is formed over the text, as names
are not masked. -/
theorem Piece.Formed.unmask {t : Text} {p : Piece} (h : p.Formed (mask t)) : p.Formed t := by
  cases p with
  | opening name tight tag =>
      obtain ⟨hkind, helements, hname, hchars⟩ := h
      rw [label_mask hchars] at hname hchars
      exact ⟨hkind, helements, hname, hchars⟩
  | _ => exact h

-- =============================================================== tags

/-- The value of an attribute is no element. -/
theorem elementless_value? {offset k : Nat} {t : Text} {n : Node}
    (h : value? offset t = some (n, k)) : n.Elementless := by
  cases t with
  | nil => cases h
  | cons q cs =>
      unfold value? at h
      dsimp only at h
      split at h
      · split at h
        · cases h
          exact elementless_leaf nofun
        · cases h
      · split at h
        · cases h
        · cases h
          exact elementless_leaf nofun

/-- An attribute is no element. -/
theorem elementless_readAttribute {offset k : Nat} {t : Text} {n : Node}
    (h : readAttribute offset t = .ok (n, k)) : n.Elementless := by
  unfold readAttribute at h
  dsimp only at h
  split at h
  · split at h
    · next hvalue =>
        cases h
        refine elementless_branch nofun fun c hc => ?_
        rcases List.mem_cons.1 hc with rfl | hc
        · exact elementless_leaf nofun
        · rw [List.mem_singleton.1 hc]
          exact elementless_value? hvalue
    · cases h
  · cases h
    refine elementless_branch nofun fun c hc => ?_
    rw [List.mem_singleton.1 hc]
    exact elementless_leaf nofun

/-- A broken body holds no element. -/
theorem elementless_brokenBody (offset : Nat) (t : Text) :
    ∀ c ∈ (brokenBody offset t).children, c.Elementless := by
  unfold brokenBody
  dsimp only
  split
  · exact List.forall_mem_singleton.2 (elementless_fault _ _)
  · exact List.forall_mem_singleton.2 (elementless_fault _ _)

/-- Between the name and the end of a tag there are no elements. -/
theorem elementless_tagBody (last offset : Nat) (t : Text) :
    ∀ c ∈ (tagBody last offset t).children, c.Elementless := by
  induction last, offset, t using tagBody.induct with
  | case1 last offset =>
      rw [tagBody]
      exact List.forall_mem_nil _
  | case2 last offset c cs skip hskip ih =>
      rw [tagBody, if_pos hskip]
      exact ih
  | case3 last offset c cs skip gap hskip hself =>
      rw [tagBody, if_neg hskip, if_pos hself]
      exact List.forall_mem_nil _
  | case4 last offset c cs skip gap hskip hself hspace n ih =>
      rw [tagBody, if_neg hskip, if_neg hself, if_pos hspace]
      exact ih
  | case5 last offset cs skip gap hskip hself hspace =>
      rw [tagBody, if_neg hskip, if_neg hself, if_neg hspace, if_pos rfl]
      exact List.forall_mem_nil _
  | case6 last offset c cs skip gap hskip hself hspace hclose hattr node n hread ih =>
      rw [tagBody, if_neg hskip, if_neg hself, if_neg hspace, if_neg hclose, if_pos hattr, hread]
      exact List.forall_mem_cons.2 ⟨elementless_readAttribute hread, ih⟩
  | case7 last offset c cs skip gap hskip hself hspace hclose hattr k hread =>
      rw [tagBody, if_neg hskip, if_neg hself, if_neg hspace, if_neg hclose, if_pos hattr, hread]
      exact elementless_brokenBody _ _
  | case8 last offset c cs skip gap hskip hself hspace hclose hattr =>
      rw [tagBody, if_neg hskip, if_neg hself, if_neg hspace, if_neg hclose, if_neg hattr]
      exact elementless_brokenBody _ _

/-- A tag is no element. -/
theorem elementless_tagNode {offset : Nat} {t : Text} {kind : Kind} (h : kind ≠ .element) :
    (tagNode offset t kind).Elementless := by
  refine elementless_branch h (List.forall_mem_cons.2 ⟨elementless_leaf nofun, ?_⟩)
  exact elementless_tagBody _ _ _

/-- The name of an end tag is no element. -/
theorem elementless_endTag? {offset n : Nat} {t : Text} {name : TagName} {tight : Bool} {label : Node}
    (h : endTag? offset t = some (name, tight, label, n)) : label.Elementless := by
  unfold endTag? at h
  dsimp only at h
  split at h
  · cases h
    exact elementless_leaf nofun
  · cases h

/-- An element of raw text is of its kind and holds no element of markup. -/
theorem elementless_rawElement? {kind : Kind} {name : String} {tag element : Node} {t : Text} {n : Nat}
    (hkind : kind ≠ .element) (htag : tag.Elementless)
    (h : rawElement? kind name tag t = some (element, n)) :
    element.kind = kind ∧ element.Elementless := by
  unfold rawElement? at h
  simp only [Option.bind_eq_bind, Option.bind_eq_some_iff] at h
  obtain ⟨k, -, ⟨closer, tight, label, j⟩, hclose, h⟩ := h
  split at h
  · cases h
    refine ⟨rfl, elementless_branch hkind fun c hc => ?_⟩
    rcases List.mem_cons.1 hc with rfl | hc
    · exact htag
    · rcases List.mem_cons.1 hc with rfl | hc
      · exact elementless_leaf nofun
      · rw [List.mem_singleton.1 hc]
        exact elementless_branch nofun (List.forall_mem_singleton.2 (elementless_endTag? hclose))
  · cases h

-- ============================================================ reading

/-- A start tag is formed. -/
theorem startTag_formed {t cs : Text} {offset : Nat} (h : t.drop (offset + 1) = cs) :
    (startTag offset cs).1.Formed t := by
  have hunreadable : (unreadable offset ('<' :: cs)).1.Formed t := elementless_fault _ _
  have htag : (tagNode offset cs .startTag).Elementless := elementless_tagNode nofun
  rw [startTag_eq]
  split
  · exact hunreadable
  cases (bodyOf offset cs).ending with
  | broken => exact htag
  | cut place =>
      cases rawKind? (TagName.ofText (tagLabel cs)) with
      | none => exact htag
      | some r => exact hunreadable
  | selfClosed =>
      cases rawKind? (TagName.ofText (tagLabel cs)) with
      | none => exact ⟨_, rfl, rfl, rfl, elementless_tagNode nofun⟩
      | some r => exact hunreadable
  | opened =>
      cases hraw : rawKind? (TagName.ofText (tagLabel cs)) with
      | none =>
          refine ⟨rfl, htag, ?_, ?_⟩
          · rw [label_tagNode h]
          · rw [label_tagNode h]
            exact isTagChar_of_mem_tagLabel
      | some r =>
          obtain ⟨word, kind⟩ := r
          dsimp only
          cases helement : rawElement? kind word (tagNode offset cs .startTag)
              (cs.drop (tagLength offset cs - 1)) with
          | none => exact hunreadable
          | some r =>
              have hkind := kind_of_rawKind? hraw
              have hnot : kind ≠ .element := by
                rcases hkind with rfl | rfl
                · nofun
                · nofun
              obtain ⟨rfl, helements⟩ := elementless_rawElement? hnot htag helement
              exact ⟨hkind, helements⟩

/-- What begins with a bracket is formed. -/
theorem bracketPiece_formed {t cs : Text} {offset : Nat} (h : t.drop (offset + 1) = cs) :
    (bracketPiece offset cs).1.Formed t := by
  unfold bracketPiece
  split
  · cases doctypeLength? (cs.drop 1) with
    | none => exact elementless_fault _ _
    | some n => exact elementless_leaf (by decide)
  · split
    · cases hend : endTag? (offset + 2) (cs.drop 1) with
      | none => exact elementless_fault _ _
      | some r => exact elementless_endTag? hend
    · exact startTag_formed h

/-- The next piece is formed, whatever it begins with. -/
theorem nextPiece_formed {t cs : Text} {c : CodePoint} {offset : Nat} (h : t.drop offset = c :: cs) :
    (nextPiece offset c cs).1.Formed t := by
  have hbehind : t.drop (offset + 1) = cs := by
    rw [← List.drop_drop, h]
    rfl
  have hbroken : (brokenText offset cs).1.Formed t := elementless_fault _ _
  unfold nextPiece
  split
  · exact elementless_leaf (by decide)
  · split
    · exact bracketPiece_formed hbehind
    · split
      · cases entityLength? cs with
        | none => exact hbroken
        | some n => exact elementless_leaf (by decide)
      · split
        · exact elementless_leaf (by decide)
        · exact hbroken

/-- The pieces of a text from some place on. -/
theorem pieces_formed {t : Text} {offset : Nat} {u : Text} (h : t.drop offset = u) :
    ∀ p ∈ pieces offset u, p.Formed t := by
  induction offset, u using pieces.induct with
  | case1 => simp [pieces]
  | case2 offset c cs hspace ih =>
      rw [pieces, if_pos hspace]
      apply ih
      rw [← List.drop_drop, h]
      rfl
  | case3 offset c cs hspace node n hnext =>
      have hformed := nextPiece_formed h
      rw [hnext] at hformed
      rw [pieces, if_neg hspace, hnext]
      intro p hp
      rw [List.mem_singleton.1 hp]
      exact hformed
  | case4 offset c cs hspace piece n hfinal hnext ih =>
      have hformed := nextPiece_formed h
      rw [hnext] at hformed
      rw [pieces_of_nextPiece hspace hnext hfinal]
      have hrest : t.drop (offset + 1 + (n - 1)) = cs.drop (n - 1) := by
        rw [← List.drop_drop, ← List.drop_drop, h]
        rfl
      intro p hp
      rcases List.mem_cons.1 hp with rfl | hp
      · exact hformed
      · exact ih hrest p hp

/-- The pieces that the markup of a text is read as. -/
theorem pieces_mask_formed (t : Text) :
    ∀ p ∈ pieces (markupStart (mask t)) ((mask t).drop (markupStart (mask t))), p.Formed t :=
  fun p hp => (pieces_formed rfl p hp).unmask

end KeyHarvest.Markup
