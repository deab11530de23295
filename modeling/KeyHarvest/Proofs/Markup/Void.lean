/-
Void elements in a tree. A void element is never around another element:
it ends before the tag of one is put into it. So of the open elements only
the innermost can be void, and what is put into it is text, an entity or a
comment. This is what a stack keeps while pieces are read (`Nest.Hollow`),
and so it holds of the elements of the tree (`parse_hollow`).

Whether an element is void is decided by the name that is remembered of it
inside the elements around it, and that need not be the name in its tag:
`Node.Hollow` goes down a tree with the remembered names.
-/
import KeyHarvest.Proofs.Markup.Formed
import KeyHarvest.Proofs.Markup.Layout

namespace KeyHarvest.Markup

open Node (faults walk walk_singleton walk_append AllSound)

-- ============================================================== trees

mutual

/-- The void elements of a tree hold no elements, inside open elements of
these names. -/
def Node.Hollow (t : Text) (outer : List OpenName) : Node → Prop
  | ⟨kind, start, _, _, children⟩ =>
      kind = .element →
        let tag := children.headD (.leaf .startTag start start)
        let name := OpenName.remember outer (TagName.ofText (tag.label t))
        (tag.kind ≠ .selfClosingTag → name.any TagName.isVoid = true →
            ∀ c ∈ children, c.kind ≠ .element)
          ∧ AllHollow t (name :: outer) children

/-- The same of several trees. -/
def AllHollow (t : Text) (outer : List OpenName) : List Node → Prop
  | [] => True
  | n :: ns => Node.Hollow t outer n ∧ AllHollow t outer ns

end

variable {t : Text} {outer : List OpenName}

theorem allHollow_iff {ns : List Node} : AllHollow t outer ns ↔ ∀ n ∈ ns, n.Hollow t outer := by
  induction ns with
  | nil => simp [AllHollow]
  | cons n ns ih => rw [AllHollow, ih, List.forall_mem_cons]

/-- A node that is no element is hollow. -/
theorem hollow_of_kind {n : Node} (h : n.kind ≠ .element) : n.Hollow t outer := by
  obtain ⟨kind, start, stop, flawed, children⟩ := n
  rw [Node.Hollow]
  intro hkind
  exact absurd hkind h

/-- An element around one tag only. -/
theorem hollow_of_tag {n tag : Node} (hchildren : n.children = [tag])
    (htag : tag.kind = .selfClosingTag) : n.Hollow t outer := by
  obtain ⟨kind, start, stop, flawed, children⟩ := n
  cases hchildren
  rw [Node.Hollow]
  intro _
  refine ⟨fun hopened => ?_, allHollow_iff.2 fun c hc => ?_⟩
  · exact absurd htag hopened
  · rw [List.mem_singleton.1 hc]
    exact hollow_of_kind (by rw [htag]; nofun)

-- ============================================================== stack

/-- An open element: it is void only if it is innermost and has no elements
in it, and its name is the one that is remembered. -/
structure Frame.Hollow (t : Text) (fs : List Frame) (f : Frame) : Prop where
  tag : f.tag.kind = .startTag
  name : f.name = OpenName.remember (fs.map Frame.name) (TagName.ofText (f.tag.label t))
  void : f.name.any TagName.isVoid = true → ∀ c ∈ f.children, c.kind ≠ .element
  children : ∀ c ∈ f.children, c.Hollow t (f.name :: fs.map Frame.name)
  around : ∀ g ∈ fs, g.name.any TagName.isVoid = false

/-- The same of all open elements. -/
def FramesHollow (t : Text) : List Frame → Prop
  | [] => True
  | f :: fs => f.Hollow t fs ∧ FramesHollow t fs

namespace Nest

/-- A stack in which void elements hold no elements. -/
structure Hollow (t : Text) (s : Nest) : Prop where
  frames : FramesHollow t s.frames
  finished : ∀ n ∈ s.finished, n.Hollow t []

variable {s : Nest}

/-- A node takes its place unless it is an element inside a void one. -/
theorem Hollow.add {n : Node} (h : s.Hollow t) (hn : n.Hollow t (s.frames.map Frame.name))
    (hvoid : n.kind = .element → ∀ f ∈ s.frames.head?, f.name.any TagName.isVoid = false) :
    (s.add n).Hollow t := by
  obtain ⟨frames, finished⟩ := s
  obtain ⟨hframes, hfinished⟩ := h
  cases frames with
  | nil => exact ⟨hframes, List.forall_mem_cons.2 ⟨hn, hfinished⟩⟩
  | cons f fs =>
      obtain ⟨hf, hfs⟩ := hframes
      refine ⟨⟨⟨hf.tag, hf.name, ?_, List.forall_mem_cons.2 ⟨hn, hf.children⟩, hf.around⟩, hfs⟩,
        hfinished⟩
      intro hname
      refine List.forall_mem_cons.2 ⟨fun hkind => ?_, hf.void hname⟩
      have hnot := hvoid hkind f rfl
      rw [show f.name.any TagName.isVoid = true from hname] at hnot
      cases hnot

/-- An open element that ends is hollow. -/
theorem hollow_of_frame {f : Frame} {fs : List Frame} (h : f.Hollow t fs) {last : List Node}
    (hlast : ∀ c ∈ last, c.kind ≠ .element) (stop : Nat) (flawed : Bool) :
    Node.Hollow t (fs.map Frame.name)
      ⟨.element, f.tag.start, stop, flawed, f.tag :: f.children.reverse ++ last⟩ := by
  have htag : f.tag.kind ≠ .element := by
    rw [h.tag]
    nofun
  rw [Node.Hollow]
  intro _
  dsimp only
  rw [List.cons_append, List.headD_cons, ← h.name]
  constructor
  · intro _ hvoid c hc
    rcases List.mem_cons.1 hc with rfl | hc
    · exact htag
    · rcases List.mem_append.1 hc with hc | hc
      · exact h.void hvoid c (List.mem_reverse.1 hc)
      · exact hlast c hc
  · refine allHollow_iff.2 fun c hc => ?_
    rcases List.mem_cons.1 hc with rfl | hc
    · exact hollow_of_kind htag
    · rcases List.mem_append.1 hc with hc | hc
      · exact h.children c (List.mem_reverse.1 hc)
      · exact hollow_of_kind (hlast c hc)

/-- Closing the innermost element keeps a stack hollow. -/
theorem Hollow.close {stop : Nat} {last : List Node} (h : s.Hollow t)
    (hlast : ∀ c ∈ last, c.kind ≠ .element) : (s.close stop last).Hollow t := by
  obtain ⟨frames, finished⟩ := s
  cases frames with
  | nil => exact h
  | cons f fs =>
      obtain ⟨hf, hfs⟩ := h.frames
      have hrest : Hollow t ⟨fs, finished⟩ := ⟨hfs, h.finished⟩
      refine hrest.add (hollow_of_frame hf hlast stop _) fun _ g hg => ?_
      exact hf.around g (List.mem_of_mem_head? hg)

/-- Settling keeps a stack hollow. -/
theorem Hollow.settle {ends : Ends} {stop : Nat} (h : s.Hollow t) : (s.settle ends stop).Hollow t :=
  settle_induction h fun _ hs => hs.close nofun

/-- Elements that must end do not stay open. -/
theorem stays_of_settle {ends : Ends} {stop : Nat} (s : Nest) :
    ∀ f ∈ (s.settle ends stop).frames.head?,
      ¬ ends f.name ((s.settle ends stop).frames.map Frame.name) = true := by
  induction s using settle_cases ends stop with
  | closed s hframes =>
      rw [settle_of_closed hframes, hframes]
      nofun
  | ended s f fs hframes hends ih => rwa [settle_of_ends hframes hends]
  | stays s f fs hframes hends =>
      rw [settle_of_stays hframes hends]
      intro g hg
      rw [hframes] at hg
      obtain rfl := Option.some.inj hg
      exact hends

/-- Before a start tag void elements end. -/
theorem not_isVoid_of_settle {name : TagName} {tight : Bool} {stop : Nat} (s : Nest) :
    ∀ f ∈ (s.settle (beforeOpening name tight) stop).frames.head?,
      f.name.any TagName.isVoid = false := by
  intro f hf
  have hstays := stays_of_settle s f hf
  cases hname : f.name with
  | none => rfl
  | some n =>
      rw [beforeOpening, hname, Option.any_some, Bool.or_eq_true, not_or] at hstays
      exact Bool.eq_false_iff.2 hstays.1

/-- Pieces keep void elements without elements in them. -/
theorem Hollow.step {p : Piece} (h : s.Hollow t) (hp : p.Formed t) : (s.step p).Hollow t := by
  cases p with
  | plain node => exact h.add (hollow_of_kind hp.kind) fun hkind => absurd hkind hp.kind
  | opening name tight tag =>
      obtain ⟨htag, -, hname, -⟩ := hp
      have hs : (s.settle (beforeOpening name tight) tag.start).Hollow t := h.settle
      have htop : ∀ f ∈ (s.settle (beforeOpening name tight) tag.start).frames.head?,
          f.name.any TagName.isVoid = false := not_isVoid_of_settle s
      unfold Nest.step remember
      dsimp only
      generalize s.settle (beforeOpening name tight) tag.start = s at hs htop
      refine ⟨⟨⟨htag, by rw [hname], fun _ => nofun, nofun, ?_⟩, hs.frames⟩, hs.finished⟩
      -- below the innermost element no other one is void
      intro g hg
      cases hframes : s.frames with
      | nil =>
          rw [hframes] at hg
          cases hg
      | cons f fs =>
          have hall := hs.frames
          rw [hframes] at hg hall htop
          rcases List.mem_cons.1 hg with rfl | hg
          · exact htop g rfl
          · exact hall.1.around g hg
  | complete name tight element =>
      obtain ⟨tag, -, hchildren, htag, -⟩ := hp
      exact h.settle.add (hollow_of_tag hchildren htag) fun _ => not_isVoid_of_settle s
  | raw name tight element =>
      unfold Nest.step
      dsimp only
      split
      · exact h.settle.add (hollow_of_kind hp.2.kind) fun hkind => absurd hkind hp.2.kind
      · exact h.settle.add (hollow_of_kind nofun) nofun
  | closing name tight start stop label =>
      have hs : (s.settle (beforeClosing name tight) start).Hollow t := h.settle
      unfold Nest.step
      dsimp only
      split
      · exact hs.add (hollow_of_kind nofun) nofun
      · split
        · refine hs.close fun c hc => ?_
          rw [List.mem_singleton.1 hc]
          nofun
        · exact hs.add (hollow_of_kind nofun) nofun
  | unfinished name tight place tag =>
      exact h.settle.settle.add (hollow_of_kind hp.kind) fun hkind => absurd hkind hp.kind
  | final node => exact h.settle.add (hollow_of_kind hp.kind) fun hkind => absurd hkind hp.kind

/-- Formed pieces keep a stack hollow, by induction over them. -/
theorem Hollow.foldl {ps : List Piece} (h : s.Hollow t) (hps : ∀ p ∈ ps, p.Formed t) :
    (ps.foldl Nest.step s).Hollow t := by
  induction ps generalizing s with
  | nil => exact h
  | cons p ps ih =>
      rw [List.forall_mem_cons] at hps
      exact ih (h.step hps.1) hps.2

/-- The nodes of a hollow stack are hollow at the end of the text. -/
theorem Hollow.leave (h : s.Hollow t) (u : Text) : ∀ n ∈ s.leave u, n.Hollow t [] := by
  have hsettled : (s.settle beforeEnd u.length).Hollow t := h.settle
  unfold Nest.leave
  dsimp only
  generalize s.settle beforeEnd u.length = s at hsettled
  obtain ⟨frames, finished⟩ := s
  match frames with
  | [] =>
      intro n hn
      exact hsettled.finished n (List.mem_reverse.1 hn)
  | [f] =>
      intro n hn
      rcases List.mem_cons.1 (List.mem_reverse.1 hn) with rfl | hn
      · have hopen : Node.Hollow t [] ⟨.element, f.tag.start, lastStop f, true,
            f.tag :: f.children.reverse ++ []⟩ :=
          hollow_of_frame hsettled.frames.1 (List.forall_mem_nil _) (lastStop f) true
        rwa [List.append_nil] at hopen
      · exact hsettled.finished n hn
  | f :: g :: fs =>
      have hclosed : (closeAll u.length ⟨f :: g :: fs, finished⟩).Hollow t := hsettled.settle
      have hall := hclosed.add (n := .broken .fault u.length u.length) (hollow_of_kind nofun) nofun
      intro n hn
      exact hall.finished n (List.mem_reverse.1 hn)

end Nest

/-- The stack at the end of a text keeps the names of its elements. -/
theorem nest_hollow (t : Text) : (nest (mask t)).Hollow t := by
  have hempty : Nest.Hollow t ⟨[], []⟩ := ⟨trivial, nofun⟩
  exact hempty.foldl (pieces_mask_formed t)

/-- In the tree of a text without malformed places void elements hold no
elements. -/
theorem parse_hollow {t : Text} (h : faults (parse (mask t)).children = []) :
    AllHollow t [] (parse (mask t)).children := by
  have hbare := (Nest.not_isFault_of_finish (nest_sound (mask t)) (Nat.le_refl _) h).1
  rw [children_parse, Nest.finish_of_not_bare hbare]
  exact allHollow_iff.2 ((nest_hollow t).leave (mask t))

-- =========================================================== left open

/-- In a forest of sound nodes without malformed places no flag is raised. -/
theorem not_flawed_of_faults {limit : Nat} {ns : List Node} (hns : AllSound limit ns)
    (h : faults ns = []) : ∀ m ∈ walk ns, m.flawed = false := by
  intro m hm
  have hbelow : ∀ x ∈ walk [m], x ∈ walk ns := by
    rw [walk_singleton]
    exact List.forall_mem_cons.2 ⟨hm, fun x hx => Node.mem_walk_children hm hx⟩
  have hsound : AllSound limit [m] := fun x hx => hns x (hbelow x hx)
  apply Node.flawless_of_not_isFault hsound
  · exact fun x hx => Node.not_isFault_of_faults hns h x (hbelow x hx)
  · exact List.mem_cons_self

/-- What is malformed in an element that is left open stands inside it. -/
theorem faults_leftOpen (f : Frame) :
    faults [Nest.leftOpen f] = faults (f.tag :: f.children.reverse) := by
  have hflawed : (Nest.leftOpen f).flawed = true := rfl
  rw [faults, if_neg (by simp [Nest.leftOpen, Node.isFault]), if_pos hflawed, List.append_nil]
  rfl

/-- In the tree of a text without malformed places no node is one, and none
has a flag but for the one element that the end of the text left open. -/
theorem flawless_or_leftOpen {t : Text} (h : faults (parse t).children = []) {n : Node}
    (hn : n ∈ walk (parse t).children) :
    n.flawed = false ∧ n.isFault = false ∨ ∃ f, ((nest t).settle Nest.beforeEnd t.length).frames = [f]
      ∧ n = Nest.leftOpen f := by
  have hbare := (Nest.not_isFault_of_finish (nest_sound t) (Nat.le_refl _) h).1
  have hsound : ((nest t).settle Nest.beforeEnd t.length).Sound t.length :=
    (nest_sound t).settle (Nat.le_refl _)
  rw [children_parse, Nest.finish_of_not_bare hbare] at h hn
  unfold Nest.leave at h hn
  dsimp only at h hn
  generalize (nest t).settle Nest.beforeEnd t.length = s at hsound h hn ⊢
  have hall : ∀ ns : List Node, (∀ m ∈ ns, m ∈ s.nodes) → faults ns = [] →
      ∀ m ∈ walk ns, m.flawed = false ∧ m.isFault = false := by
    intro ns hns hfaults m hm
    have hall : AllSound t.length ns := Node.allSound_iff.2 fun m hm => (hsound m (hns m hm)).1
    exact ⟨not_flawed_of_faults hall hfaults m hm, Node.not_isFault_of_faults hall hfaults m hm⟩
  obtain ⟨frames, finished⟩ := s
  match frames with
  -- nothing is open: every node is one of the stack
  | [] => exact .inl (hall _ (fun m hm => List.mem_reverse.1 hm) h n hn)
  | [f] =>
      dsimp only at h hn
      rw [List.reverse_cons, Node.faults_append] at h
      rw [List.reverse_cons, walk_append, walk_singleton, List.mem_append, List.mem_cons] at hn
      obtain ⟨hfinished, hopen⟩ := List.append_eq_nil_iff.1 h
      rw [faults_leftOpen] at hopen
      -- the element that is left open is the one exception
      rcases hn with hn | rfl | hn
      · refine .inl (hall _ (fun m hm => ?_) hfinished n hn)
        exact Nest.mem_nodes_cons.2 (.inr (List.mem_reverse.1 hm))
      · exact .inr ⟨f, rfl, rfl⟩
      · refine .inl (hall _ (fun m hm => Nest.mem_nodes_cons.2 (.inl ?_)) hopen n hn)
        simpa using hm
  | f :: g :: fs =>
      -- several open elements end in a malformed place, and there is none
      have hfault : Node.broken .fault t.length t.length ∈ faults
          ((Nest.closeAll t.length ⟨f :: g :: fs, finished⟩).add
            (.broken .fault t.length t.length)).finished.reverse := by
        refine Node.mem_faults ?_ rfl
        rw [Nest.add, Nest.frames_closeAll]
        simp
      rw [show _ = _ from h] at hfault
      cases hfault

/-- Whether a name is void does not change when it is kept. -/
theorem TagName.isVoid_kept (name : TagName) : name.kept.isVoid = name.isVoid := by
  cases name with
  | listed s => rfl
  | custom bytes => rfl

/-- Outside of all elements every name is remembered. -/
theorem remember_nil (name : TagName) : OpenName.remember [] name = some name.kept := by
  refine if_pos ?_
  show 0 + name.cells < memorySize
  cases name with
  | listed s => exact (by decide : 0 + 1 < memorySize)
  | custom bytes =>
      simp only [TagName.cells, longestName, memorySize]
      omega

/-- An element that the end of the text leaves open is not void. -/
theorem not_isVoid_of_flawed {t : Text} (h : faults (parse (mask t)).children = []) {n : Node}
    (hn : n ∈ walk (parse (mask t)).children) (hflawed : n.flawed = true) :
    (TagName.ofText (n.openingTag.label t)).isVoid = false := by
  rcases flawless_or_leftOpen h hn with ⟨hflawless, -⟩ | ⟨f, hframes, rfl⟩
  · rw [hflawless] at hflawed
    cases hflawed
  · have hhollow : ((nest (mask t)).settle Nest.beforeEnd (mask t).length).Hollow t :=
      (nest_hollow t).settle
    have hframe := hhollow.frames
    rw [hframes] at hframe
    have hname := hframe.1.name
    rw [List.map_nil, remember_nil] at hname
    have hstays := Nest.stays_of_settle (nest (mask t)) f (by rw [hframes]; rfl)
    rw [Nest.beforeEnd, hname, Option.any_some, TagName.endsWithText, TagName.isVoid_kept,
      Bool.or_eq_true, Bool.or_eq_true, not_or, not_or] at hstays
    exact Bool.eq_false_iff.2 hstays.1.1

end KeyHarvest.Markup
