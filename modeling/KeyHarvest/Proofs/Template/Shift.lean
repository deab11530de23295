/-
Template nodes further down. The nodes of a template keep nothing of where
they stand but the line of their tags. So when markup nodes are read from
a longer text in which they stand further to the right, the same template
nodes come out, further down (`content_shift`). The keys of the nodes are
the same on any line (`nodesKeys_down`).

What a source and a longer one must agree on is little: at the offsets of
the markup nodes they have the same text, and lines that differ by a fixed
number (`Carries`).
-/
import KeyHarvest.Keys.Marked
import KeyHarvest.Proofs.Markup.Nest
import KeyHarvest.Proofs.Refusal
import KeyHarvest.Proofs.Template.Order

namespace KeyHarvest

-- =============================================================== lines

/-- The number of line feeds in a text. -/
def lineFeeds (t : Text) : Nat := t.count (CodePoint.ofChar '\n')

/-- Going over a text adds its line feeds to the line. -/
theorem Place.line_foldl (p : Place) (t : Text) :
    (t.foldl Place.next p).line = p.line + lineFeeds t := by
  unfold lineFeeds
  induction t generalizing p with
  | nil => rfl
  | cons c cs ih =>
      rw [List.foldl_cons, ih, List.count_cons]
      unfold Place.next
      by_cases hc : c = '\n'
      · subst hc
        simp
        omega
      · simp [hc]

/-- The line of a place behind another text. -/
theorem Place.line_append (pre t : Text) (offset : Nat) :
    (Place.ofOffset (pre ++ t) (offset + pre.length)).line
      = (Place.ofOffset t offset).line + lineFeeds pre := by
  unfold Place.ofOffset
  rw [Nat.add_comm, List.take_length_add_append, List.foldl_append, Place.line_foldl,
    Place.line_foldl, Place.line_foldl]
  omega

/-- What follows does not change where a place is. -/
theorem Place.ofOffset_before {t post : Text} {offset : Nat} (h : offset ≤ t.length) :
    Place.ofOffset (t ++ post) offset = Place.ofOffset t offset := by
  unfold Place.ofOffset
  rw [List.take_append_of_le_length h]

namespace Template

open Markup (Kind)

-- =============================================================== nodes

namespace Node

mutual

/-- The same node further down. -/
def down (k : Nat) : Node → Node
  | .element name plain inputs outputs references children line =>
      .element name plain inputs outputs references (downAll k children) (line + k)
  | .template tag attributes children line =>
      .template tag attributes (downAll k children) (line + k)
  | .text value => .text value
  | .boundText value => .boundText value

/-- The same nodes further down. -/
def downAll (k : Nat) : List Node → List Node
  | [] => []
  | n :: ns => down k n :: downAll k ns

end

theorem downAll_eq_map (k : Nat) (ns : List Node) : downAll k ns = ns.map (down k) := by
  induction ns with
  | nil => rfl
  | cons n ns ih => rw [downAll, ih, List.map_cons]

theorem map_down_zero (ns : List Node) : ns.map (down 0) = ns := by
  refine forall_forest (P := fun n => n.down 0 = n) (Q := fun ns => ns.map (down 0) = ns) ?_ rfl
    ?_ ns
  · intro n hchildren
    cases n with
    | element name plain inputs outputs references children line =>
        rw [down, downAll_eq_map, show children.map (down 0) = children from hchildren]
        rfl
    | template tag attributes children line =>
        rw [down, downAll_eq_map, show children.map (down 0) = children from hchildren]
        rfl
    | text value => rfl
    | boundText value => rfl
  · intro n ns hn hns
    rw [List.map_cons, hn, hns]

end Node

/-- An element further down. -/
theorem down_assemble (k : Nat) (name : Text) (a : Attributes) (children : List Node) (line : Nat) :
    (Source.assemble name a children line).down k
      = Source.assemble name a (children.map (Node.down k)) (line + k) := by
  unfold Source.assemble
  dsimp only
  split
  · split <;> simp [Node.down, Node.downAll_eq_map]
  · split <;> simp [Node.down, Node.downAll_eq_map]

-- ============================================================ sources

namespace Source

open Markup.Node (walk shift)

/-- What a source and another one, in which its text stands `d` code points
further to the right and `k` lines further down, share at an offset. -/
structure Carries (s s' : Source) (d k offset : Nat) : Prop where
  slice : ∀ start, Text.slice s'.text (start + d) (offset + d) = Text.slice s.text start offset
  line : (Place.ofOffset s'.text (offset + d)).line = (Place.ofOffset s.text offset).line + k

/-- A text behind another one. -/
theorem carries_behind (pre t path : Text) (offset : Nat) :
    Carries ⟨t, path⟩ ⟨pre ++ t, path⟩ pre.length (lineFeeds pre) offset :=
  ⟨fun start => Markup.Nest.slice_append pre t start offset, Place.line_append pre t offset⟩

/-- A text before another one. -/
theorem carries_before {t post path : Text} {offset : Nat} (h : offset ≤ t.length) :
    Carries ⟨t, path⟩ ⟨t ++ post, path⟩ 0 0 offset := by
  refine ⟨fun start => ?_, ?_⟩
  · show ((t ++ post).drop start).take (offset - start) = (t.drop start).take (offset - start)
    by_cases hstart : start ≤ t.length
    · rw [List.drop_append_of_le_length hstart, List.take_append_of_le_length]
      rw [List.length_drop]
      omega
    · rw [show offset - start = 0 by omega, List.take_zero, List.take_zero]
  · show (Place.ofOffset (t ++ post) offset).line = (Place.ofOffset t offset).line
    rw [Place.ofOffset_before h]

/-- The sources share what they say where nodes begin and end. -/
def CarriesAll (s s' : Source) (d k : Nat) (ns : List Markup.Node) : Prop :=
  ∀ m ∈ walk ns, Carries s s' d k m.start ∧ Carries s s' d k m.stop

variable {s s' : Source} {d k : Nat}

theorem CarriesAll.children {n : Markup.Node} {ns : List Markup.Node}
    (h : CarriesAll s s' d k ns) (hn : n ∈ ns) : CarriesAll s s' d k n.children := fun m hm =>
  h m (Markup.Node.mem_walk.2 ⟨n, hn, Markup.Node.mem_walk_of_mem_children hm⟩)

theorem CarriesAll.tail {n : Markup.Node} {ns : List Markup.Node}
    (h : CarriesAll s s' d k (n :: ns)) : CarriesAll s s' d k ns := by
  intro m hm
  refine h m ?_
  rw [Markup.Node.walk_cons]
  exact List.mem_append_right _ hm

/-- The same at the first node. -/
theorem CarriesAll.head {n : Markup.Node} {ns : List Markup.Node}
    (h : CarriesAll s s' d k (n :: ns)) : CarriesAll s s' d k [n] := by
  intro m hm
  refine h m ?_
  rw [Markup.Node.walk_cons]
  exact List.mem_append_left _ hm

theorem CarriesAll.stop {n : Markup.Node} {ns : List Markup.Node}
    (h : CarriesAll s s' d k ns) (hn : n ∈ ns) : Carries s s' d k n.stop :=
  (h n (Markup.Node.mem_walk_of_mem hn)).2

theorem CarriesAll.start {n : Markup.Node} {ns : List Markup.Node}
    (h : CarriesAll s s' d k ns) (hn : n ∈ ns) : Carries s s' d k n.start :=
  (h n (Markup.Node.mem_walk_of_mem hn)).1

/-- The text of a child reads the same. -/
theorem textOf_child?_shift {n : Markup.Node} (h : CarriesAll s s' d k n.children) (kind : Kind) :
    ((n.shift d).child? kind).map s'.textOf = (n.child? kind).map s.textOf := by
  rw [Markup.Node.child?_shift, Option.map_map]
  cases hchild : n.child? kind with
  | none => rfl
  | some c =>
      have hc : c ∈ n.children := List.mem_of_find?_eq_some hchild
      show some (Text.slice s'.text (c.shift d).start (c.shift d).stop) = some (s.textOf c)
      rw [Markup.Node.shift_start, Markup.Node.shift_stop, (h.stop hc).slice]
      rfl

/-- The name of a tag is the same in both sources. -/
theorem tagName_shift {n : Markup.Node} (h : CarriesAll s s' d k n.children) :
    s'.tagName (n.shift d) = s.tagName n := by
  unfold tagName
  rw [textOf_child?_shift h]

/-- The name and the value of an attribute are the same in both sources. -/
theorem attributeParts_shift {n : Markup.Node} (h : CarriesAll s s' d k n.children) :
    s'.attributeParts (n.shift d) = s.attributeParts n := by
  unfold attributeParts
  simp only [textOf_child?_shift h]

/-- What a run becomes depends on the source by its path alone. -/
theorem textNode?_of_path (hpath : s'.path = s.path) (raw : Text) :
    s'.textNode? raw = s.textNode? raw := by
  unfold textNode?
  rw [hpath]

/-- Text has no line. -/
theorem toList_textNode? {raw : Text} {o : Option Node} (h : s.textNode? raw = .ok o) :
    o.toList.map (Node.down k) = o.toList := by
  unfold textNode? at h
  split at h
  · obtain rfl := Except.ok.inj h
    rfl
  · obtain ⟨value, -, h⟩ := bind_eq_ok.1 h
    split at h
    · obtain rfl := Except.ok.inj h
      rfl
    · obtain rfl := Except.ok.inj h
      rfl
    · cases h
    · cases h

/-- What a binding that is read gives does not depend on where it stands. -/
theorem mapError_of_ok {α ε ε' ε'' : Type} {x : Except ε α} {f : ε → ε'} {g : ε → ε''} {a : α}
    (h : x.mapError f = .ok a) : x.mapError g = .ok a := by
  cases x with
  | error e => cases h
  | ok b => exact congrArg _ (Except.ok.inj h)

/-- The entries of an attribute do not depend on where it stands. -/
theorem classify_of_ok {n n' : Markup.Node} {name value : Text} {a : Attributes}
    (h : s.classify n name value = .ok a) : s'.classify n' name value = .ok a := by
  have hbound : ∀ {x b}, s.bound n x value = .ok b → s'.bound n' x value = .ok b := by
    intro x b hb
    obtain ⟨e, he, hb⟩ := bind_eq_ok.1 hb
    exact bind_eq_ok.2 ⟨e, mapError_of_ok he, hb⟩
  unfold classify at h ⊢
  split at h
  · exact h
  · obtain ⟨b, hb, h⟩ := bind_eq_ok.1 h
    exact bind_eq_ok.2 ⟨b, hbound hb, h⟩
  · obtain ⟨b, hb, h⟩ := bind_eq_ok.1 h
    exact bind_eq_ok.2 ⟨b, hbound hb, h⟩
  · exact h
  · exact h
  · exact h
  · obtain ⟨o, ho, h⟩ := bind_eq_ok.1 h
    exact bind_eq_ok.2 ⟨o, mapError_of_ok ho, h⟩

/-- The attributes of a tag that are read. -/
theorem attributes_shift {ns : List Markup.Node} {a : Attributes} (hall : CarriesAll s s' d k ns)
    (h : s.attributes ns = .ok a) : s'.attributes (ns.map (shift d)) = .ok a := by
  induction ns generalizing a with
  | nil => exact h
  | cons n ns ih =>
      rw [List.map_cons]
      unfold attributes at h ⊢
      rw [Markup.Node.shift_kind]
      split at h
      · rename_i hkind
        obtain ⟨parts, hparts, h⟩ := bind_eq_ok.1 h
        obtain ⟨first, hfirst, h⟩ := bind_eq_ok.1 h
        obtain ⟨rest, hrest, h⟩ := bind_eq_ok.1 h
        rw [if_pos hkind, attributeParts_shift (hall.children (by simp)), hparts]
        refine bind_eq_ok.2 ⟨parts, rfl, bind_eq_ok.2 ⟨first, classify_of_ok hfirst, ?_⟩⟩
        exact bind_eq_ok.2 ⟨rest, ih hall.tail hrest, h⟩
      · rename_i hkind
        rw [if_neg hkind]
        exact ih hall.tail h

-- =========================================================== elements

/-- The tag of an element, further to the right. -/
theorem headD_map_shift (ns : List Markup.Node) (kind : Kind) (start : Nat) :
    (ns.map (shift d)).headD (.leaf kind (start + d) (start + d))
      = (ns.headD (.leaf kind start start)).shift d := by
  cases ns with
  | nil => rw [List.map_nil, List.headD_nil, List.headD_nil, Markup.Node.shift_leaf]
  | cons n ns => rfl

/-- Where the content of an element ends, further to the right. -/
theorem closer_map_shift (ns : List Markup.Node) (stop : Nat) :
    (((ns.map (shift d)).find? (·.kind = .endTag)).map (·.start)).getD (stop + d)
      = ((ns.find? (·.kind = .endTag)).map (·.start)).getD stop + d := by
  have hkind : (fun n : Markup.Node => decide (n.kind = .endTag)) ∘ shift d
      = fun n => decide (n.kind = .endTag) := by
    funext n
    simp
  rw [List.find?_map, hkind]
  cases ns.find? (·.kind = .endTag) with
  | none => rfl
  | some z => exact Markup.Node.shift_start z

mutual

/-- An element that is read, further to the right. -/
theorem element_shift (hpath : s'.path = s.path) : ∀ (n : Markup.Node) {node : Node},
    CarriesAll s s' d k [n] → s.element n = .ok node →
    s'.element (n.shift d) = .ok (node.down k)
  | ⟨kind, start, stop, flawed, children⟩, node, hall, h => by
      have hchildren : CarriesAll s s' d k children :=
        hall.children (n := ⟨kind, start, stop, flawed, children⟩) (by simp)
      have hend : Carries s s' d k
          (((children.find? (·.kind = .endTag)).map (·.start)).getD stop) := by
        cases hfind : children.find? (·.kind = .endTag) with
        | none => exact hall.stop (n := ⟨kind, start, stop, flawed, children⟩) (by simp)
        | some z => exact hchildren.start (List.mem_of_find?_eq_some hfind)
      have htag : CarriesAll s s' d k (children.headD (.leaf .startTag start start)).children := by
        cases children with
        | nil => simp [CarriesAll, Markup.Node.leaf, walk]
        | cons n ns => exact hchildren.children (by simp)
      have hline := (hall.start (n := ⟨kind, start, stop, flawed, children⟩) (by simp)).line
      rw [element] at h
      rw [Markup.Node.shift, Markup.Node.shiftAll_eq_map, element, headD_map_shift,
        closer_map_shift, tagName_shift htag, Markup.Node.shift_kind, Markup.Node.shift_stop,
        Markup.Node.shift_children, hline]
      generalize children.headD (.leaf .startTag start start) = tag at h htag ⊢
      have hbuild : ∀ inner,
          (s.attributes tag.children >>= fun a =>
            pure (assemble (s.tagName tag) a inner (Place.ofOffset s.text start).line)) = .ok node →
          (s'.attributes (tag.children.map (shift d)) >>= fun a =>
            pure (assemble (s.tagName tag) a (inner.map (Node.down k))
              ((Place.ofOffset s.text start).line + k))) = .ok (node.down k) := by
        intro inner hnode
        obtain ⟨a, ha, hnode⟩ := bind_eq_ok.1 hnode
        obtain rfl := Except.ok.inj hnode
        refine bind_eq_ok.2 ⟨a, attributes_shift htag ha, ?_⟩
        rw [down_assemble]
        rfl
      split at h
      · rename_i hkind
        rw [if_pos hkind]
        exact hbuild [] h
      · rename_i hkind
        obtain ⟨inner, hinner, h⟩ := bind_eq_ok.1 h
        rw [if_neg hkind]
        exact bind_eq_ok.2 ⟨inner.map (Node.down k),
          content_shift hpath _ _ hend children hchildren hinner, hbuild inner h⟩

/-- Content that is read, further to the right. -/
theorem content_shift (hpath : s'.path = s.path) (cursor stop : Nat)
    (hstop : Carries s s' d k stop) : ∀ (ns : List Markup.Node) {nodes : List Node},
    CarriesAll s s' d k ns → s.content cursor stop ns = .ok nodes →
    s'.content (cursor + d) (stop + d) (ns.map (shift d)) = .ok (nodes.map (Node.down k))
  | [], nodes, _, h => by
      rw [content] at h
      obtain ⟨o, ho, h⟩ := bind_eq_ok.1 h
      obtain rfl := Except.ok.inj h
      rw [List.map_nil, content, hstop.slice, textNode?_of_path hpath]
      refine bind_eq_ok.2 ⟨o, ho, ?_⟩
      rw [toList_textNode? ho]
      rfl
  | n :: ns, nodes, hall, h => by
      have hstart := hall.start (n := n) (by simp)
      rw [List.map_cons, content, Markup.Node.shift_kind, Markup.Node.shift_start,
        Markup.Node.shift_stop, hstart.slice, textNode?_of_path hpath]
      rw [content] at h
      split at h
      · -- an element interrupts the text
        rename_i hkind
        obtain ⟨before, hbefore, h⟩ := bind_eq_ok.1 h
        obtain ⟨e, he, h⟩ := bind_eq_ok.1 h
        obtain ⟨rest, hrest, h⟩ := bind_eq_ok.1 h
        obtain rfl := Except.ok.inj h
        rw [if_pos hkind]
        refine bind_eq_ok.2 ⟨before, hbefore, bind_eq_ok.2 ⟨e.down k, ?_,
          bind_eq_ok.2 ⟨rest.map (Node.down k), ?_, ?_⟩⟩⟩
        · exact element_shift hpath n (hall.head) he
        · exact content_shift hpath n.stop stop hstop ns hall.tail hrest
        · rw [List.map_append, List.map_cons, toList_textNode? hbefore]
          rfl
      · rename_i hkind
        rw [if_neg hkind]
        split at h
        · -- so does a node that is skipped
          rename_i hskipped
          obtain ⟨before, hbefore, h⟩ := bind_eq_ok.1 h
          obtain ⟨rest, hrest, h⟩ := bind_eq_ok.1 h
          obtain rfl := Except.ok.inj h
          rw [if_pos hskipped]
          refine bind_eq_ok.2 ⟨before, hbefore, bind_eq_ok.2 ⟨rest.map (Node.down k), ?_, ?_⟩⟩
          · exact content_shift hpath n.stop stop hstop ns hall.tail hrest
          · rw [List.map_append, toList_textNode? hbefore]
            rfl
        · -- any other node is part of the text
          rename_i hskipped
          rw [if_neg hskipped]
          exact content_shift hpath cursor stop hstop ns hall.tail h

end

-- ============================================================= checks

/-- Which tag is left open is the same in both sources. -/
theorem unclosedName?_shift {n : Markup.Node} (h : CarriesAll s s' d k n.children) :
    s'.unclosedName? (n.shift d) = s.unclosedName? n := by
  have htag : CarriesAll s s' d k (n.children.headD (.leaf .startTag n.start n.start)).children := by
    cases hcases : n.children with
    | nil => simp [CarriesAll, Markup.Node.leaf, walk]
    | cons m ns => exact h.children (by rw [hcases]; simp)
  unfold unclosedName?
  dsimp only
  rw [Markup.Node.shift_children, Markup.Node.shift_start, headD_map_shift, tagName_shift htag,
    Markup.Node.shift_kind, Markup.Node.child?_shift, Option.isNone_map]

/-- An element is left open wherever it stands. -/
theorem isUnclosed_shift {n : Markup.Node} (h : CarriesAll s s' d k n.children) :
    s'.isUnclosed (n.shift d) = s.isUnclosed n := by
  unfold isUnclosed
  rw [unclosedName?_shift h]

end Source

end Template

/-- Lines do not matter for keys. -/
theorem MarkedKeys.nodesKeys_down (m : MarkedKeys) (k : Nat) (ns : List Template.Node) :
    m.nodesKeys (ns.map (Template.Node.down k)) = m.nodesKeys ns := by
  have hplain : ∀ children : List Template.Node,
      (children.map (Template.Node.down k)).filterMap MarkedKeys.plainText?
        = children.filterMap MarkedKeys.plainText? := by
    intro children
    rw [List.filterMap_map]
    congr 1
    funext n
    cases n <;> simp [Template.Node.down, MarkedKeys.plainText?]
  refine Template.Node.forall_forest (P := fun n => m.nodeKeys (n.down k) = m.nodeKeys n)
    (Q := fun ns => m.nodesKeys (ns.map (Template.Node.down k)) = m.nodesKeys ns) ?_ rfl ?_ ns
  · intro n hchildren
    cases n with
    | element name plain inputs outputs references children line =>
        have hown : m.ownKeys plain inputs (children.map (Template.Node.down k))
            = m.ownKeys plain inputs children := by
          unfold ownKeys
          rw [hplain]
        rw [Template.Node.down, Template.Node.downAll_eq_map, nodeKeys, nodeKeys, hown]
        exact congrArg _ hchildren
    | template tag attributes children line =>
        rw [Template.Node.down, Template.Node.downAll_eq_map, nodeKeys, nodeKeys]
        exact hchildren
    | text value => rfl
    | boundText value => rfl
  · intro n ns hn hns
    rw [List.map_cons, nodesKeys, nodesKeys, hn, hns]

end KeyHarvest
