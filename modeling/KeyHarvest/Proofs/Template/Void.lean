/-
Void elements in a template. An element with the name of a void one holds
no elements, but it is not empty either: it has no end of its own before
the next tag, so the text behind its tag is inside it, and none of that
text belongs to the element around it (`void_holds_text`).

A name is void in lower case for the check of a template, and by its
upper-case bytes for the markup. The two agree but for the Kelvin sign,
which has a lower case in ASCII and is no letter of ASCII in upper case
(`isVoid_ofText`). And a void element must have its name remembered inside
the elements around it (`namesAt`): there is room for about a thousand.
-/
import KeyHarvest.Proofs.Markup.Snug
import KeyHarvest.Proofs.Markup.Void
import KeyHarvest.Proofs.Template.Comment
import KeyHarvest.Proofs.Template.Runs

namespace KeyHarvest

-- ============================================================== names

/-- The Kelvin sign, whose lower case is a letter of ASCII. -/
def kelvin : Nat := 0x212A

/-- Of the letters beyond ASCII only the Kelvin sign has a lower case in
ASCII. -/
theorem lowerRuns_beyond : ∀ r ∈ lowerRuns, 0x80 ≤ r.target ∨ r.first = kelvin ∧ r.last = kelvin := by
  decide +kernel

namespace CodePoint

theorem val_ofNat_ge {n : Nat} (h : 0x80 ≤ n) : 0x80 ≤ (ofNat n).val := by
  unfold ofNat
  split
  · exact h
  · exact (by decide : 0x80 ≤ 0xFFFD)

/-- Of the code points that are not ASCII only the Kelvin sign has a small
letter that is. -/
theorem val_lower_ge {c : CodePoint} (h : 0x80 ≤ c.val) (hkelvin : c.val ≠ kelvin) :
    0x80 ≤ c.lower.val := by
  unfold lower
  rw [if_neg (by omega), CaseRun.map]
  split
  · next r hr =>
      refine val_ofNat_ge (Nat.le_trans ?_ (Nat.le_add_right _ _))
      rcases lowerRuns_beyond r (List.mem_of_find?_eq_some hr) with htarget | ⟨hfirst, hlast⟩
      · exact htarget
      · have hcovers := List.find?_some hr
        simp only [CaseRun.covers, within, Bool.and_eq_true, decide_eq_true_eq, hfirst, hlast]
          at hcovers
        omega
  · exact h

theorem upper_lower_ascii :
    ∀ n (h : n < 0x80), (lower ⟨n, by omega⟩).upper = upper ⟨n, by omega⟩ := by
  decide

/-- Lower case does not change the upper case of ASCII. -/
theorem upper_lower {c : CodePoint} (h : c.val < 0x80) : c.lower.upper = c.upper :=
  upper_lower_ascii c.val h

end CodePoint

namespace Text

/-- A text whose lower case is ASCII is ASCII, up to Kelvin signs. -/
theorem ascii_of_lowerAfter {before t : Text} (h : ∀ c ∈ lowerAfter before t, c.val < 0x80)
    (hkelvin : ∀ c ∈ t, c.val ≠ kelvin) :
    (∀ c ∈ t, c.val < 0x80) ∧ lowerAfter before t = t.map CodePoint.lower := by
  induction t generalizing before with
  | nil => exact ⟨nofun, rfl⟩
  | cons c cs ih =>
      rw [lowerAfter] at h ⊢
      rw [List.forall_mem_append] at h
      rw [List.forall_mem_cons] at hkelvin
      obtain ⟨hrest, hmap⟩ := ih h.2 hkelvin.2
      have hform := h.1
      by_cases hdotted : c.val = 0x130
      · rw [if_pos hdotted] at hform
        exact absurd (hform (.ofNat 0x307) (by simp)) (by decide)
      by_cases hsigma : c.val = 0x3A3
      · rw [if_neg hdotted, if_pos hsigma] at hform
        have hfinal := hform _ List.mem_cons_self
        split at hfinal
        · exact absurd hfinal (by decide)
        · exact absurd hfinal (by decide)
      rw [if_neg hdotted, if_neg hsigma] at hform ⊢
      have hascii : c.val < 0x80 := by
        by_contra hge
        have hlower := CodePoint.val_lower_ge (Nat.le_of_not_lt hge) hkelvin.1
        exact absurd (hform c.lower List.mem_cons_self) (Nat.not_lt.2 hlower)
      exact ⟨List.forall_mem_cons.2 ⟨hascii, hrest⟩, by rw [hmap]; rfl⟩

end Text

namespace Markup.TagName

/-- A name is told by its bytes. -/
theorem ofText_congr {t u : Text} (h : bytesOf t = bytesOf u) : ofText t = ofText u := by
  unfold ofText
  rw [h]

theorem isVoid_of_voidElements :
    ∀ s ∈ Template.Source.voidElements, (ofText (Text.ofString s)).isVoid = true := by
  decide +kernel

end Markup.TagName

namespace Template

open Markup (Kind OpenName TagName)
open Markup.Node (walk faults)

/-- A name that is void in lower case, without a Kelvin sign. -/
structure NamesVoid (name : Text) : Prop where
  lower : Text.isOneOf Source.voidElements (Text.lower name) = true
  plain : ∀ c ∈ name, c.val ≠ kelvin

/-- What is void in lower case is void for the markup. -/
theorem NamesVoid.isVoid {name : Text} (h : NamesVoid name) : (TagName.ofText name).isVoid = true := by
  obtain ⟨s, hs, hname⟩ := List.any_eq_true.1 h.lower
  have hname : Text.ofString s = Text.lower name := of_decide_eq_true hname
  have hascii : ∀ c ∈ Text.lower name, c.val < 0x80 := by
    rw [← hname]
    have hall : ∀ s ∈ Source.voidElements, ∀ c ∈ Text.ofString s, c.val < 0x80 := by decide +kernel
    exact hall s hs
  obtain ⟨hplain, hlower⟩ := Text.ascii_of_lowerAfter hascii h.plain
  have hbytes : TagName.bytesOf (Text.ofString s) = TagName.bytesOf name := by
    rw [hname, Text.lower, hlower, TagName.bytesOf, List.map_map]
    refine List.map_congr_left fun c hc => ?_
    show UInt8.ofNat c.lower.upper.val = UInt8.ofNat c.upper.val
    rw [CodePoint.upper_lower (hplain c hc)]
  rw [← TagName.ofText_congr hbytes]
  exact TagName.isVoid_of_voidElements s hs

-- =========================================================== elements

/-- The names that are remembered inside a node. A template that is only
around an element, for its directives, has no tag of its own. -/
def Node.namesInside (outer : List OpenName) : Node → List OpenName
  | .element name _ _ _ _ _ _ => OpenName.remember outer (TagName.ofText name) :: outer
  | .template tag attributes _ _ =>
      if attributes.directives.isEmpty then OpenName.remember outer (TagName.ofText tag) :: outer
      else outer
  | _ => outer

/-- The names that are remembered around the node at an address. -/
def namesAt (outer : List OpenName) (ns : List Node) : Address → List OpenName
  | [] => outer
  | [_] => outer
  | i :: j :: a =>
      match ns[i]? with
      | some n => namesAt (n.namesInside outer) n.children (j :: a)
      | none => outer

mutual

/-- The void elements of a node hold only text, inside open elements of
these names. -/
def Node.Hollow (outer : List OpenName) : Node → Prop
  | .element name plain inputs outputs references children line =>
      ((OpenName.remember outer (TagName.ofText name)).any TagName.isVoid = true →
          ∀ c ∈ children, c.isText = true)
        ∧ AllHollow
          ((Node.element name plain inputs outputs references children line).namesInside outer) children
  | .template tag attributes children line =>
      AllHollow ((Node.template tag attributes children line).namesInside outer) children
  | _ => True

/-- The same of several nodes. -/
def AllHollow (outer : List OpenName) : List Node → Prop
  | [] => True
  | n :: ns => n.Hollow outer ∧ AllHollow outer ns

end

variable {outer : List OpenName}

/-- Nodes are hollow when each of them is. -/
theorem allHollow_iff {ns : List Node} : AllHollow outer ns ↔ ∀ n ∈ ns, n.Hollow outer := by
  induction ns with
  | nil => simp [AllHollow]
  | cons n ns ih => rw [AllHollow, ih, List.forall_mem_cons]

theorem Node.Hollow.children {n : Node} (h : n.Hollow outer) :
    AllHollow (n.namesInside outer) n.children := by
  cases n with
  | element =>
      rw [Node.Hollow] at h
      exact h.2
  | template =>
      rw [Node.Hollow] at h
      exact h
  | _ => exact allHollow_iff.2 nofun

/-- Text is hollow, as it has no name. -/
theorem hollow_of_isText {n : Node} (h : n.isText = true) : n.Hollow outer := by
  cases n with
  | text => trivial
  | boundText => trivial
  | _ => cases h

/-- What holds of the nodes of a template holds of the node at every
address. -/
theorem hollow_at? {ns : List Node} {a : Address} {n : Node} (h : AllHollow outer ns)
    (hn : at? ns a = some n) : n.Hollow (namesAt outer ns a) := by
  induction a generalizing outer ns with
  | nil => cases hn
  | cons i a ih =>
      obtain ⟨x, hx, hn⟩ := Option.bind_eq_some_iff.1 hn
      have hhollow : x.Hollow outer := allHollow_iff.1 h x (List.mem_of_getElem? hx)
      cases a with
      | nil =>
          cases hn
          exact hhollow
      | cons j b =>
          rw [namesAt, hx]
          exact ih hhollow.children hn

/-- An element is hollow when its children are, and when they are texts if
it is void. -/
theorem hollow_assemble {name : Text} {a : Attributes} {children : List Node} {line : Nat}
    (hvoid : (OpenName.remember outer (TagName.ofText name)).any TagName.isVoid = true →
      ∀ c ∈ children, c.isText = true)
    (hchildren : AllHollow (OpenName.remember outer (TagName.ofText name) :: outer) children) :
    (Source.assemble name a children line).Hollow outer := by
  have hown : Node.Hollow outer
      (if name = Text.ofString "ng-template" then
        .template name { a with directives := [] } children line
      else .element name a.plain a.inputs a.outputs a.references children line) := by
    split
    · rw [Node.Hollow]
      exact hchildren
    · rw [Node.Hollow]
      exact ⟨hvoid, hchildren⟩
  unfold Source.assemble
  dsimp only
  split
  · exact hown
  · next hdirectives =>
      rw [Node.Hollow, Node.namesInside, if_neg hdirectives]
      exact allHollow_iff.2 (List.forall_mem_singleton.2 hown)

namespace Source

variable {s : Source}

/-- A run becomes text. -/
theorem isText_of_mem_toList {raw : Text} {o : Option Node} (h : s.textNode? raw = .ok o) :
    ∀ n ∈ o.toList, n.isText = true := by
  cases o with
  | none => nofun
  | some n => exact List.forall_mem_singleton.2 (isText_of_textNode? h).1

/-- Content without elements is text. -/
theorem isText_of_content {cursor stop : Nat} {ns : List Markup.Node} {nodes : List Node}
    (h : s.content cursor stop ns = .ok nodes) (hns : ∀ n ∈ ns, n.kind ≠ .element) :
    ∀ n ∈ nodes, n.isText = true := by
  induction ns generalizing cursor nodes with
  | nil =>
      rw [content] at h
      obtain ⟨o, ho, h⟩ := bind_eq_ok.1 h
      cases h
      exact isText_of_mem_toList ho
  | cons n ns ih =>
      rw [List.forall_mem_cons] at hns
      rw [content, if_neg hns.1] at h
      split at h
      · obtain ⟨before, hbefore, h⟩ := bind_eq_ok.1 h
        obtain ⟨rest, hrest, h⟩ := bind_eq_ok.1 h
        cases h
        exact List.forall_mem_append.2 ⟨isText_of_mem_toList hbefore, ih hrest hns.2⟩
      · exact ih h hns.2

mutual

/-- An element whose void elements hold no elements becomes a node whose
void elements hold only text. -/
theorem hollow_element : ∀ (n : Markup.Node) {outer : List OpenName} {node : Node},
    n.kind = .element → n.Hollow s.text outer → s.element n = .ok node → node.Hollow outer
  | ⟨_, start, stop, _, children⟩, outer, node, hkind, hhollow, h => by
      rw [Markup.Node.Hollow] at hhollow
      obtain ⟨hvoid, hchildren⟩ := hhollow hkind
      rw [element] at h
      dsimp only at h
      split at h
      · obtain ⟨inner, hinner, h⟩ := bind_eq_ok.1 h
        obtain ⟨a, -, h⟩ := bind_eq_ok.1 h
        cases hinner
        cases h
        exact hollow_assemble (fun _ => nofun) (allHollow_iff.2 nofun)
      · next hopened =>
          obtain ⟨inner, hinner, h⟩ := bind_eq_ok.1 h
          obtain ⟨a, -, h⟩ := bind_eq_ok.1 h
          cases h
          refine hollow_assemble (fun hname => ?_) (hollow_content _ _ children hchildren hinner)
          exact isText_of_content hinner (hvoid hopened hname)

/-- The content of hollow markup is hollow, by recursion over the markup. -/
theorem hollow_content (cursor stop : Nat) : ∀ (ns : List Markup.Node) {outer : List OpenName}
    {nodes : List Node}, Markup.AllHollow s.text outer ns → s.content cursor stop ns = .ok nodes →
    AllHollow outer nodes
  | [], outer, nodes, _, h => by
      rw [content] at h
      obtain ⟨o, ho, h⟩ := bind_eq_ok.1 h
      cases h
      exact allHollow_iff.2 fun n hn => hollow_of_isText (isText_of_mem_toList ho n hn)
  | n :: ns, outer, nodes, hhollow, h => by
      rw [Markup.AllHollow] at hhollow
      rw [content] at h
      split at h
      · next hkind =>
          obtain ⟨before, hbefore, h⟩ := bind_eq_ok.1 h
          obtain ⟨e, he, h⟩ := bind_eq_ok.1 h
          obtain ⟨rest, hrest, h⟩ := bind_eq_ok.1 h
          cases h
          have hall := hollow_content n.stop stop ns hhollow.2 hrest
          rw [allHollow_iff, List.forall_mem_append, List.forall_mem_cons]
          exact ⟨fun m hm => hollow_of_isText (isText_of_mem_toList hbefore m hm),
            hollow_element n hkind hhollow.1 he, allHollow_iff.1 hall⟩
      · split at h
        · obtain ⟨before, hbefore, h⟩ := bind_eq_ok.1 h
          obtain ⟨rest, hrest, h⟩ := bind_eq_ok.1 h
          cases h
          have hall := hollow_content n.stop stop ns hhollow.2 hrest
          rw [allHollow_iff, List.forall_mem_append]
          exact ⟨fun m hm => hollow_of_isText (isText_of_mem_toList hbefore m hm),
            allHollow_iff.1 hall⟩
        · exact hollow_content cursor stop ns hhollow.2 h

end

end Source

-- ========================================================= neighbours

/-- Where text in front of some nodes ends: where the first of them that
interrupts it begins, or at the end of the content. -/
def textEnd (stop : Nat) : List Markup.Node → Nat
  | [] => stop
  | n :: ns => if Source.interrupts n then n.start else textEnd stop ns

/-- Content begins with text. -/
theorem exists_segments_eq (cursor stop : Nat) (ns : List Markup.Node) :
    ∃ gs, segments cursor stop ns = .text cursor (textEnd stop ns) :: gs := by
  induction ns with
  | nil => exact ⟨[], rfl⟩
  | cons n ns ih =>
      rw [segments, textEnd, Source.interrupts]
      by_cases hkind : n.kind = .element
      · rw [if_pos hkind, if_pos (by simp [hkind])]
        exact ⟨_, rfl⟩
      · rw [if_neg hkind]
        by_cases hskipped : Source.isSkipped n.kind = true
        · rw [if_pos hskipped, if_pos (by simp [hskipped])]
          exact ⟨_, rfl⟩
        · rw [if_neg hskipped, if_neg (by simp [hkind, hskipped])]
          exact ih

/-- Behind a stretch of text an element is the next segment, or stands
further on. -/
theorem element_behind_text {a b : Nat} {g : Segment} {gs before after : List Segment}
    {v : Markup.Node} (h : .text a b :: g :: gs = before ++ .element v :: after) :
    (∃ rest, gs = rest ++ .element v :: after) ∨ g = .element v ∧ gs = after := by
  cases before with
  | nil => cases h
  | cons x xs =>
      obtain ⟨-, h⟩ := List.cons.inj h
      cases xs with
      | nil => exact .inr (List.cons.inj h)
      | cons y ys => exact .inl ⟨ys, (List.cons.inj h).2⟩

/-- Text behind an element begins where the element ends. -/
theorem text_behind {cursor stop c d : Nat} {ns : List Markup.Node} {before after : List Segment}
    {v : Markup.Node} (h : segments cursor stop ns = before ++ .element v :: .text c d :: after) :
    ∃ pre post, ns = pre ++ v :: post ∧ v.kind = .element ∧ d = textEnd stop post ∧ c = v.stop := by
  induction ns generalizing cursor before with
  | nil =>
      cases before with
      | nil => cases h
      | cons x xs =>
          have hnil := (List.cons.inj h).2
          exact absurd hnil.symm (List.append_ne_nil_of_right_ne_nil xs nofun)
  | cons n ns ih =>
      have hlater : ∀ {cursor before},
          segments cursor stop ns = before ++ .element v :: .text c d :: after →
          ∃ pre post, n :: ns = pre ++ v :: post ∧ v.kind = .element ∧ d = textEnd stop post
            ∧ c = v.stop := by
        intro cursor before h
        obtain ⟨pre, post, rfl, hv⟩ := ih h
        exact ⟨n :: pre, post, rfl, hv⟩
      rw [segments] at h
      split at h
      · next hkind =>
          rcases element_behind_text h with ⟨rest, hrest⟩ | ⟨hv, hnext⟩
          · exact hlater hrest
          · obtain ⟨gs, hgs⟩ := exists_segments_eq n.stop stop ns
            rw [hgs] at hnext
            cases hv
            cases hnext
            exact ⟨[], ns, rfl, hkind, rfl, rfl⟩
      · split at h
        · rcases element_behind_text h with ⟨rest, hrest⟩ | ⟨hv, -⟩
          · exact hlater hrest
          · cases hv
        · exact hlater h

/-- The last child of a node decides where its content ends. -/
theorem child?_endTag {n w : Markup.Node} {pre : List Markup.Node} (hchildren : n.children = pre ++ [w])
    (hended : ∀ c ∈ n.children.dropLast, c.kind ≠ .endTag) :
    n.child? .endTag = if w.kind = .endTag then some w else none := by
  have hnone : pre.find? (·.kind = .endTag) = none := by
    rw [hchildren, List.dropLast_concat] at hended
    rw [List.find?_eq_none]
    intro c hc
    simpa using hended c hc
  rw [Markup.Node.child?, hchildren, List.find?_append, hnone, Option.none_or, List.find?_cons]
  by_cases hw : w.kind = .endTag
  · simp [hw]
  · simp [hw]

/-- A child stands below the root of its tree. -/
theorem mem_walk_of_child {root n c : Markup.Node} (hn : n ∈ walk [root]) (hc : c ∈ n.children) :
    c ∈ walk root.children := by
  have hbelow : c ∈ walk n.children := Markup.Node.mem_walk_of_mem hc
  rw [Markup.Node.walk_singleton] at hn
  rcases List.mem_cons.1 hn with rfl | hn
  · exact hbelow
  · exact Markup.Node.mem_walk_children hn hbelow

/-- What can stand behind an element without an end tag interrupts text, or
is an end tag. -/
theorem interrupts_or_endTag {t : Text} (hfaults : faults (Markup.parse t).children = [])
    (hstray : ∀ m ∈ walk (Markup.parse t).children, m.kind ≠ .strayEndTag)
    {w : Markup.Node} (hw : w ∈ walk (Markup.parse t).children) (hborder : w.isBorder = true) :
    Source.interrupts w = true ∨ w.kind = .endTag := by
  have hfault : w.isFault = false := by
    rcases Markup.flawless_or_leftOpen hfaults hw with ⟨-, hfault⟩ | ⟨f, -, rfl⟩
    · exact hfault
    · rfl
  have hstray := hstray w hw
  unfold Markup.Node.isBorder at hborder
  unfold Markup.Node.isFault at hfault
  unfold Source.interrupts Source.isSkipped
  cases hkind : w.kind <;> simp_all

/-- The content of a node ends before the last child, if that is an end tag,
and where the node ends, if not. -/
theorem stop_of_contentSpan? {t : Text} {n : Markup.Node} (hn : n ∈ walk [Markup.parse t])
    (hroot : n = Markup.parse t ∨ n.kind = .element) {a b : Nat}
    (hspan : contentSpan? n = some (a, b)) {pre : List Markup.Node} {w : Markup.Node}
    (hchildren : n.children = pre ++ [w]) : b = if w.kind = .endTag then w.start else n.stop := by
  rcases hroot with rfl | hkind
  · have hw := Markup.not_endTag_parse t w (by rw [hchildren]; simp)
    rw [if_neg hw]
    cases hspan
    rfl
  · have hended := (Markup.laid_parse t n hn).ended hkind
    unfold contentSpan? at hspan
    rw [hkind] at hspan
    dsimp only at hspan
    split at hspan
    · cases hspan
    · cases hspan
      rw [child?_endTag hchildren hended]
      split <;> rfl

/-- Nothing stands behind an end tag. -/
theorem eq_nil_of_endTag {t : Text} {n : Markup.Node} (hn : n ∈ walk [Markup.parse t])
    (hroot : n = Markup.parse t ∨ n.kind = .element) {pre ws : List Markup.Node}
    {w : Markup.Node} (hchildren : n.children = pre ++ w :: ws) (hw : w.kind = .endTag) : ws = [] := by
  have hkind : n.kind = .element := by
    apply hroot.resolve_left
    intro hdocument
    refine Markup.not_endTag_parse t w ?_ hw
    rw [← hdocument, hchildren]
    simp
  rcases List.eq_nil_or_concat ws with hnil | ⟨us, z, hws⟩
  · exact hnil
  · apply absurd hw ((Markup.laid_parse t n hn).ended hkind w _)
    rw [hchildren, hws, List.dropLast_append_cons, List.dropLast_cons_of_ne_nil (by simp)]
    simp

/-- In the content of a document or element of a tree that was read,
nothing but a tag or the end of the content stands behind an element
without an end tag. -/
theorem textEnd_of_unended {t : Text} (hfaults : faults (Markup.parse t).children = [])
    (hstray : ∀ m ∈ walk (Markup.parse t).children, m.kind ≠ .strayEndTag)
    {n : Markup.Node} (hn : n ∈ walk [Markup.parse t])
    (hroot : n = Markup.parse t ∨ n.kind = .element) {a b : Nat}
    (hspan : contentSpan? n = some (a, b)) {pre post : List Markup.Node} {v : Markup.Node}
    (hchildren : n.children = pre ++ v :: post) (hv : v.Unended) : textEnd b post = v.stop := by
  have hinside := Markup.parse_tight hfaults n hn
  cases post with
  | nil =>
      have hstop := hinside.last v (by rw [hchildren]; simp) hv
      have hb := stop_of_contentSpan? hn hroot hspan hchildren
      rw [if_neg (by rw [hv.kind]; nofun)] at hb
      rw [textEnd, hb]
      exact Option.some.inj hstop
  | cons w ws =>
      have hchain := hinside.chain
      rw [hchildren, List.isChain_append_cons_cons] at hchain
      obtain ⟨hstart, hborder⟩ := hchain.2.1 hv
      rw [textEnd]
      split
      · exact hstart
      · next hinterrupts =>
          have hw : w ∈ walk (Markup.parse t).children := mem_walk_of_child hn (by rw [hchildren]; simp)
          -- so it is the end tag of the element around both
          have hend := (interrupts_or_endTag hfaults hstray hw hborder).resolve_left hinterrupts
          have hsplit : n.children = (pre ++ [v]) ++ w :: ws := by
            rw [hchildren, List.append_assoc, List.singleton_append]
          obtain rfl : ws = [] := eq_nil_of_endTag hn hroot hsplit hend
          have hb := stop_of_contentSpan? hn hroot hspan hsplit
          rw [if_pos hend] at hb
          rw [textEnd, hb]
          exact hstart

/-- A name that is remembered is as void as it is written. -/
theorem any_isVoid_remember {outer : List OpenName} {name : TagName}
    (h : (OpenName.remember outer name).isSome = true) :
    (OpenName.remember outer name).any TagName.isVoid = name.isVoid := by
  unfold OpenName.remember at h ⊢
  split at h
  · next hroom => rw [if_pos hroom, Option.any_some, TagName.isVoid_kept]
  · cases h

/-- In a template that is accepted an element with the name of a void one
holds nothing but text. What it holds, if it has no end tag and does not
close itself, is all from its tag up to the next tag that it ends at: none
of the text behind it belongs to the content that it stands in. -/
theorem void_holds_text {path text : Text} {nodes : List Node} (h : parse path text = .ok nodes) :
    (∀ a name plain inputs outputs references children line,
      at? nodes a = some (.element name plain inputs outputs references children line) →
      NamesVoid name →
      (OpenName.remember (namesAt [] nodes a) (TagName.ofText name)).isSome = true →
      ∀ c ∈ children, c.isText = true)
    ∧ (∀ n ∈ walk [Markup.parse (mask text)], n = Markup.parse (mask text) ∨ n.kind = .element →
      ∀ a b, contentSpan? n = some (a, b) →
      ∀ before v c d after, segments a b n.children = before ++ .element v :: .text c d :: after →
      v.openingTag.kind = .startTag → v.child? .endTag = none →
      NamesVoid (Source.tagName ⟨text, path⟩ v.openingTag) →
      contentSpan? v = some (v.openingTag.stop, v.stop) ∧ c = d) := by
  obtain ⟨hcheck, hcontent⟩ := parse_eq_ok.1 h
  have hfaults := faults_of_check hcheck
  have hstray := (Source.check_document_eq_ok hcheck).1
  constructor
  · intro a name plain inputs outputs references children line hnode hname hremembered
    have hhollow := Source.hollow_content _ _ _ (Markup.parse_hollow hfaults) hcontent
    have helement := hollow_at? hhollow hnode
    rw [Node.Hollow] at helement
    refine helement.1 ?_
    rw [any_isVoid_remember hremembered]
    exact hname.isVoid
  · intro n hn hroot a b hspan before v c d after hsegments hopened hunclosed hname
    obtain ⟨pre, post, hchildren, hkind, rfl, rfl⟩ := text_behind hsegments
    have hv : v ∈ walk (Markup.parse (mask text)).children :=
      mem_walk_of_child hn (by rw [hchildren]; simp)
    have hended : v.flawed = false := by
      by_contra hflawed
      have hvoid : (TagName.ofText (v.openingTag.label text)).isVoid = true := hname.isVoid
      rw [Markup.not_isVoid_of_flawed hfaults hv (Bool.eq_true_of_not_eq_false hflawed)] at hvoid
      cases hvoid
    have hunended : v.Unended := ⟨hkind, hended, hopened, fun c hc => by
      simpa using List.find?_eq_none.1 hunclosed c hc⟩
    constructor
    · rw [contentSpan?, hkind]
      dsimp only
      rw [if_neg (by rw [hopened]; decide), hunclosed]
      rfl
    · exact (textEnd_of_unended hfaults hstray hn hroot hspan hchildren hunended).symm

/-- A line break with text behind it: the text is inside the break, and the
element around both has none behind it. -/
theorem void_holds_text_break :
    let s : Source := ⟨Text.ofString "<b>one<br>two</b>", []⟩
    let inner : Markup.Node := ⟨.element, 6, 13, false,
      [⟨.startTag, 6, 10, false, [⟨.tagName, 7, 9, false, []⟩]⟩, ⟨.text, 10, 13, false, []⟩]⟩
    let outer : Markup.Node := ⟨.element, 0, 17, false,
      [⟨.startTag, 0, 3, false, [⟨.tagName, 1, 2, false, []⟩]⟩, ⟨.text, 3, 6, false, []⟩, inner,
        ⟨.endTag, 13, 17, false, [⟨.tagName, 15, 16, false, []⟩]⟩]⟩
    let two : Node := .text (Text.ofString "two")
    let line : Node := .element (Text.ofString "br") [] [] [] [] [two] 1
    parse [] s.text
        = .ok [.element (Text.ofString "b") [] [] [] [] [.text (Text.ofString "one"), line] 1]
      ∧ (∀ c ∈ [two], c.isText = true)
      ∧ segments 3 13 outer.children = [.text 3 6, .element inner, .text 13 13]
      ∧ contentSpan? inner = some (10, 13) := by
  intro s inner outer two line
  let root : Node :=
    .element (Text.ofString "b") [] [] [] [] [.text (Text.ofString "one"), line] 1
  have hmarkup : Markup.parse (mask (Text.ofString "<b>one<br>two</b>")) = ⟨.document, 0, 17, false,
      [⟨.element, 0, 17, false,
        [⟨.startTag, 0, 3, false, [⟨.tagName, 1, 2, false, []⟩]⟩, ⟨.text, 3, 6, false, []⟩,
          ⟨.element, 6, 13, false, [⟨.startTag, 6, 10, false, [⟨.tagName, 7, 9, false, []⟩]⟩,
            ⟨.text, 10, 13, false, []⟩]⟩,
          ⟨.endTag, 13, 17, false, [⟨.tagName, 15, 16, false, []⟩]⟩]⟩]⟩ := by cbv
  -- text without references and code is kept as it is
  have hplain : ∀ raw : Text, Text.isBlank raw = false → CodePoint.ofChar '&' ∉ raw →
      Text.holds ['{', '{'] raw = false → Source.collapse raw = raw →
      s.textNode? raw = .ok (some (.text raw)) := by
    intro raw hraw hreference hcode hcollapse
    rw [textNode?_of_plain hraw hreference hcode, hcollapse]
  have hone := hplain (Text.ofString "one") (by decide) (by decide) (by decide) (by decide +kernel)
  have htwo := hplain (Text.ofString "two") (by decide) (by decide) (by decide) (by decide +kernel)
  have hinner : s.content 10 13 inner.children = .ok [two] := by
    refine Source.content_eq_ok.2 ⟨[[two]], .cons ?_ .nil, rfl⟩
    refine Source.build_eq_iff.1 ?_
    show (s.textNode? (Text.ofString "two")).map Option.toList = _
    rw [htwo]
    rfl
  have hline : s.element inner = .ok line := by
    rw [Source.element_eq rfl (a := 10) (b := 13) rfl, hinner]
    rfl
  have houter : s.content 3 13 outer.children = .ok [.text (Text.ofString "one"), line] := by
    refine Source.content_eq_ok.2 ⟨[[.text (Text.ofString "one")], [line], []], ?_, rfl⟩
    refine .cons (Source.build_eq_iff.1 ?_) (.cons (.element hline) (.cons (.blank rfl) .nil))
    show (s.textNode? (Text.ofString "one")).map Option.toList = _
    rw [hone]
    rfl
  have hparse : parse [] s.text = .ok [root] := by
    refine parse_eq_ok.2 ⟨by decide +kernel, ?_⟩
    rw [show mask s.text = mask (Text.ofString "<b>one<br>two</b>") from rfl, hmarkup]
    refine Source.content_eq_ok.2 ⟨[[], [root], []], ?_, rfl⟩
    refine .cons (.blank rfl) (.cons (.element ?_) (.cons (.blank rfl) .nil))
    rw [Source.element_eq rfl (a := 3) (b := 13) rfl]
    show (s.content 3 13 outer.children >>= fun inner => _) = _
    rw [houter]
    rfl
  obtain ⟨hvoid, hbehind⟩ := void_holds_text hparse
  refine ⟨hparse, ?_, rfl, ?_⟩
  · refine hvoid [0, 1] _ _ _ _ _ _ _ rfl ⟨by decide, by decide⟩ ?_
    decide
  · have hmem : outer ∈ walk [Markup.parse (mask s.text)] := by
      rw [show mask s.text = mask (Text.ofString "<b>one<br>two</b>") from rfl, hmarkup]
      exact Markup.Node.mem_walk_of_mem_children (Markup.Node.mem_walk_of_mem List.mem_cons_self)
    exact (hbehind outer hmem (.inr rfl) 3 13 rfl [.text 3 6] inner 13 13 [] rfl rfl rfl
      ⟨by decide, by decide⟩).1

end Template

end KeyHarvest
