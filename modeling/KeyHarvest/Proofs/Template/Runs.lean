/-
The running text of a template. A run is a stretch of text that is not
blank, as it is written. The runs of a template, in the order in which they
are read, and the text nodes of its nodes, in document order, correspond
one to one (`forall₂_runs`): no run is lost, split or joined with another,
and there are no other text nodes. What holds of text nodes at any depth is
then a question about one run (`exists_run`).
-/
import KeyHarvest.Proofs.Template.Append
import KeyHarvest.Proofs.Template.Order
import KeyHarvest.Proofs.Template.Passages
import KeyHarvest.Proofs.Template.Tiling

namespace KeyHarvest.Template

-- =============================================================== texts

/-- Text, with interpolations or without. -/
def Node.isText : Node → Bool
  | .text _ => true
  | .boundText _ => true
  | _ => false

/-- The text nodes of a template at any depth, in document order. -/
def textNodes (ns : List Node) : List Node := ((preorderFrom 0 ns).map Prod.snd).filter Node.isText

/-- Nodes come in the same order wherever the first of them stands. -/
theorem map_snd_preorderFrom (i j : Nat) (ns : List Node) :
    (preorderFrom i ns).map Prod.snd = (preorderFrom j ns).map Prod.snd := by
  induction ns generalizing i j with
  | nil => rfl
  | cons n ns ih =>
      rw [preorderFrom, preorderFrom, List.map_append, List.map_append, List.map_map, List.map_map,
        ih (i + 1) (j + 1)]
      rfl

theorem textNodes_append (ns ms : List Node) :
    textNodes (ns ++ ms) = textNodes ns ++ textNodes ms := by
  induction ns with
  | nil => rfl
  | cons n ns ih =>
      unfold textNodes at ih ⊢
      rw [List.cons_append, preorderFrom, preorderFrom, List.map_append, List.map_append,
        map_snd_preorderFrom (0 + 1) 0, map_snd_preorderFrom (0 + 1) 0, List.filter_append,
        List.filter_append, ih, List.append_assoc]

/-- A node comes before the text nodes below it, if it is text. -/
theorem textNodes_singleton (n : Node) :
    textNodes [n] = (if n.isText then [n] else []) ++ textNodes n.children := by
  unfold textNodes
  have hbelow : (n.preorder.map (under 0)).map Prod.snd = n.preorder.map Prod.snd := by
    rw [List.map_map]
    rfl
  rw [preorderFrom, preorderFrom, List.append_nil, hbelow, Node.preorder_eq, List.map_cons,
    List.filter_cons]
  split <;> rfl

/-- The text nodes of an element are those inside it. -/
theorem textNodes_assemble (name : Text) (a : Attributes) (children : List Node) (line : Nat) :
    textNodes [Source.assemble name a children line] = textNodes children := by
  have hown : textNodes
      [if name = Text.ofString "ng-template" then
        Node.template name { a with directives := [] } children line
      else .element name a.plain a.inputs a.outputs a.references children line]
      = textNodes children := by
    split
    · rw [textNodes_singleton]
      rfl
    · rw [textNodes_singleton]
      rfl
  unfold Source.assemble
  dsimp only
  split
  · exact hown
  · rw [textNodes_singleton]
    exact hown

/-- The text nodes are those at some address. -/
theorem mem_textNodes {ns : List Node} {n : Node} :
    n ∈ textNodes ns ↔ n.isText = true ∧ ∃ a, at? ns a = some n := by
  unfold textNodes
  rw [List.mem_filter, List.mem_map, and_comm]
  apply and_congr_right
  intro _
  constructor
  · intro h
    obtain ⟨⟨a, m⟩, hmem, rfl⟩ := h
    obtain ⟨j, b, rfl, hb⟩ := mem_preorderFrom.1 hmem
    exact ⟨j :: b, hb⟩
  · intro h
    obtain ⟨a, ha⟩ := h
    cases a with
    | nil => cases ha
    | cons j b => exact ⟨(j :: b, n), mem_preorderFrom.2 ⟨j, b, by rw [Nat.zero_add], ha⟩, rfl⟩

-- ================================================================ runs

/-- The run that a passage is, if it is one. -/
def Passage.run? : Passage → Option Text
  | .stretch raw => if Text.isBlank raw then none else some raw
  | .binding _ => none

/-- The runs among some passages. -/
def runsOf (ps : List Passage) : List Text := ps.filterMap Passage.run?

namespace Source

/-- The runs of a template. -/
def runs (s : Source) : List Text := runsOf s.passages

theorem runsOf_append (ps qs : List Passage) : runsOf (ps ++ qs) = runsOf ps ++ runsOf qs :=
  List.filterMap_append

/-- A run is not blank as it is written. -/
theorem isBlank_of_mem_runs {s : Source} {raw : Text} (h : raw ∈ s.runs) :
    Text.isBlank raw = false := by
  obtain ⟨p, -, hp⟩ := List.mem_filterMap.1 h
  unfold Passage.run? at hp
  split at hp
  · split at hp
    · cases hp
    · next hblank =>
        cases hp
        exact Bool.eq_false_iff.2 hblank
  · cases hp

/-- No attribute is a run. -/
theorem runsOf_attributes (ns : List Markup.Node) : runsOf (attributePassages ns) = [] := by
  unfold runsOf attributePassages
  rw [List.filterMap_map, List.filterMap_eq_nil_iff]
  intro n _
  rfl

variable {s : Source}

/-- A run becomes a text node. -/
def RunBecomes (s : Source) (raw : Text) (n : Node) : Prop := s.textNode? raw = .ok (some n)

/-- What is read of a run once its references are replaced: plain text if
there are no interpolations in it, and text bound to them if there are. -/
inductive ReadAs (value : Text) : Node → Prop where
  | text (h : Expr.parseInterpolated value = .ok none) : ReadAs value (.text (collapse value))
  | bound {e : Expr} (h : Expr.parseInterpolated value = .ok (some e)) : ReadAs value (.boundText e)

/-- What a stretch of text becomes, if it is not blank, is what is read of
it once its references are replaced. -/
theorem runBecomes_iff {raw : Text} {n : Node} :
    s.RunBecomes raw n
      ↔ Text.isBlank raw = false ∧ ∃ value, Charref.decode raw = .ok value ∧ ReadAs value n := by
  unfold RunBecomes
  constructor
  · intro h
    cases hraw : Text.isBlank raw with
    | true =>
        rw [textNode?, if_pos hraw] at h
        cases h
    | false =>
        rw [textNode?_eq hraw] at h
        refine ⟨rfl, ?_⟩
        split at h
        · cases h
        · next value hvalue =>
            refine ⟨value, hvalue, ?_⟩
            split at h
            · cases h
            · next hread =>
                cases h
                exact .text hread
            · next e hread =>
                cases h
                exact .bound hread
  · intro h
    obtain ⟨hraw, value, hvalue, hreads⟩ := h
    rw [textNode?_eq hraw, hvalue]
    cases hreads with
    | text hread => simp only [hread]
    | bound hread => simp only [hread]

/-- What a stretch of text gives is a text node. -/
theorem isText_of_textNode? {raw : Text} {n : Node} (h : s.textNode? raw = .ok (some n)) :
    n.isText = true ∧ n.children = [] ∧ Text.isBlank raw = false := by
  obtain ⟨hraw, value, -, hreads⟩ := runBecomes_iff.1 h
  cases hreads with
  | text _ => exact ⟨rfl, rfl, hraw⟩
  | bound _ => exact ⟨rfl, rfl, hraw⟩

/-- A stretch of text gives a node exactly when it is a run. -/
theorem forall₂_stretch {raw : Text} {o : Option Node} (h : s.textNode? raw = .ok o) :
    List.Forall₂ s.RunBecomes (runsOf [.stretch raw]) (textNodes o.toList) := by
  cases o with
  | none =>
      have hblank : Text.isBlank raw = true := by
        unfold textNode? at h
        split at h
        · assumption
        · obtain ⟨value, -, h⟩ := bind_eq_ok.1 h
          split at h <;> cases h
      have hruns : runsOf [.stretch raw] = [] := by simp [runsOf, Passage.run?, hblank]
      rw [hruns]
      exact .nil
  | some n =>
      obtain ⟨htext, hchildren, hraw⟩ := isText_of_textNode? h
      have hruns : runsOf [.stretch raw] = [raw] := by simp [runsOf, Passage.run?, hraw]
      have hnodes : textNodes [n] = [n] := by
        rw [textNodes_singleton, if_pos htext, hchildren]
        rfl
      rw [hruns, Option.toList_some, hnodes]
      exact .cons h .nil

/-- Runs that become text nodes part by part do so together. -/
theorem forall₂_append {ps qs : List Passage} {ns ms : List Node}
    (h : List.Forall₂ s.RunBecomes (runsOf ps) (textNodes ns))
    (h' : List.Forall₂ s.RunBecomes (runsOf qs) (textNodes ms)) :
    List.Forall₂ s.RunBecomes (runsOf (ps ++ qs)) (textNodes (ns ++ ms)) := by
  rw [runsOf_append, textNodes_append]
  exact List.rel_append h h'

mutual

/-- The runs of an element become its text nodes, by recursion over the
tree. -/
theorem forall₂_element : ∀ (n : Markup.Node) {node : Node}, s.element n = .ok node →
    List.Forall₂ s.RunBecomes (runsOf (s.elementPassages n)) (textNodes [node])
  | ⟨_, start, stop, _, children⟩, node, h => by
      rw [elementPassages, runsOf_append, runsOf_attributes, List.append_nil]
      rw [element] at h
      dsimp only at h ⊢
      split at h
      · next hkind =>
          obtain ⟨inner, hinner, h⟩ := bind_eq_ok.1 h
          cases hinner
          obtain ⟨a, -, h⟩ := bind_eq_ok.1 h
          cases h
          rw [if_pos hkind, textNodes_assemble]
          exact .nil
      · next hkind =>
          obtain ⟨inner, hinner, h⟩ := bind_eq_ok.1 h
          obtain ⟨a, -, h⟩ := bind_eq_ok.1 h
          cases h
          rw [if_neg hkind, textNodes_assemble]
          exact forall₂_content _ _ children hinner

/-- The runs of content become its text nodes, in order. -/
theorem forall₂_content (cursor stop : Nat) : ∀ (ns : List Markup.Node) {nodes : List Node},
    s.content cursor stop ns = .ok nodes →
    List.Forall₂ s.RunBecomes (runsOf (s.contentPassages cursor stop ns)) (textNodes nodes)
  | [], nodes, h => by
      rw [content] at h
      obtain ⟨o, ho, h⟩ := bind_eq_ok.1 h
      cases h
      rw [contentPassages]
      exact forall₂_stretch ho
  | n :: ns, nodes, h => by
      rw [contentPassages]
      rw [content] at h
      split at h
      · next hkind =>
          obtain ⟨before, hbefore, h⟩ := bind_eq_ok.1 h
          obtain ⟨e, he, h⟩ := bind_eq_ok.1 h
          obtain ⟨rest, hrest, h⟩ := bind_eq_ok.1 h
          cases h
          rw [if_pos hkind]
          exact forall₂_append (forall₂_stretch hbefore)
            (forall₂_append (forall₂_element n he) (forall₂_content n.stop stop ns hrest))
      · next hkind =>
          rw [if_neg hkind]
          split at h
          · next hskipped =>
              obtain ⟨before, hbefore, h⟩ := bind_eq_ok.1 h
              obtain ⟨rest, hrest, h⟩ := bind_eq_ok.1 h
              cases h
              rw [if_pos hskipped]
              exact forall₂_append (forall₂_stretch hbefore)
                (forall₂_content n.stop stop ns hrest)
          · next hskipped =>
              rw [if_neg hskipped]
              exact forall₂_content cursor stop ns h

end

end Source

/-- A node directly inside one that has an address has an address. -/
theorem Node.exists_at?_child {n m c : Node} {a : Address} (hm : n.at? a = some m)
    (hc : c ∈ m.children) : ∃ b, n.at? b = some c := by
  induction a generalizing n with
  | nil =>
      cases hm
      obtain ⟨j, hj⟩ := List.mem_iff_getElem?.1 hc
      refine ⟨[j], ?_⟩
      rw [Node.at?, hj]
      rfl
  | cons i a ih =>
      obtain ⟨x, hx, hm⟩ := Option.bind_eq_some_iff.1 hm
      obtain ⟨b, hb⟩ := ih hm
      refine ⟨i :: b, ?_⟩
      rw [Node.at?, hx]
      exact hb

/-- A child has an address when its parent has one. -/
theorem exists_at?_child {ns : List Node} {m c : Node} {a : Address} (hm : at? ns a = some m)
    (hc : c ∈ m.children) : ∃ b, at? ns b = some c := by
  cases a with
  | nil => cases hm
  | cons i a =>
      obtain ⟨x, hx, hm⟩ := Option.bind_eq_some_iff.1 hm
      obtain ⟨b, hb⟩ := Node.exists_at?_child hm hc
      refine ⟨i :: b, ?_⟩
      rw [at?, hx]
      exact hb

/-- The runs of a template that is accepted become its text nodes. -/
theorem forall₂_runs {path text : Text} {nodes : List Node} (h : parse path text = .ok nodes) :
    List.Forall₂ (Source.RunBecomes ⟨text, path⟩) (Source.runs ⟨text, path⟩) (textNodes nodes) := by
  obtain ⟨_, -, hcontent⟩ := bind_eq_ok.1 h
  exact Source.forall₂_content (s := ⟨text, path⟩) _ _ _ hcontent

/-- A text node at any depth was a run. -/
theorem exists_run {path text : Text} {nodes : List Node} (h : parse path text = .ok nodes)
    {n : Node} (hn : n ∈ textNodes nodes) :
    ∃ raw ∈ Source.runs ⟨text, path⟩, Source.RunBecomes ⟨text, path⟩ raw n := by
  have hruns := forall₂_runs h
  obtain ⟨i, hi, rfl⟩ := List.getElem_of_mem hn
  have hlength := hruns.length_eq
  exact ⟨_, List.getElem_mem (hlength ▸ hi), hruns.get (hlength ▸ hi) hi⟩

end KeyHarvest.Template
