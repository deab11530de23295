/-
Elements without an end tag. What ends such an element is the next tag, and
the element reaches up to it: nothing lies between (`Follows`). In a stack
this holds of the nodes inside each open element, of those before its tag
and of the finished ones, and while tags settle the last of them can end at
the place where the next tag begins. `Snug` says so with that place; when a
piece has been read there is none any more (`Nest.Tight.step`).

In the tree of a text without malformed places, what ends inside a node
without an end tag ends where its neighbour begins, or with the node
itself (`parse_tight`).
-/
import KeyHarvest.Proofs.Markup.Formed
import KeyHarvest.Proofs.Markup.Layout
import Mathlib.Data.List.Chain

namespace KeyHarvest.Markup

open Node (faults walk walk_singleton walk_append forall_mem_walk)

-- ========================================================= neighbours

/-- An element that began with a start tag and has no end tag, but was not
left open. -/
structure Node.Unended (n : Node) : Prop where
  kind : n.kind = .element
  ended : n.flawed = false
  opened : n.openingTag.kind = .startTag
  unclosed : ∀ c ∈ n.children, c.kind ≠ .endTag

/-- What begins with a tag, other than the tag of an open element. -/
def Node.isBorder (n : Node) : Bool :=
  match n.kind with
  | .element | .script | .style | .endTag | .strayEndTag | .fault => true
  | _ => false

/-- An element without an end tag ends where its neighbour begins. -/
def Follows (m n : Node) : Prop := m.Unended → n.start = m.stop ∧ n.isBorder = true

/-- Nodes side by side. The last of them may be an element without an end
tag if it ends at this place. -/
structure Snug (place : Option Nat) (ns : List Node) : Prop where
  chain : ns.IsChain Follows
  last : ∀ n ∈ ns.getLast?, n.Unended → place = some n.stop

variable {place place' : Option Nat} {ns ms : List Node} {n : Node}

theorem snug_nil : Snug place [] := ⟨.nil, nofun⟩

theorem not_unended_of_kind (h : n.kind ≠ .element) : ¬ n.Unended := fun hn => h hn.kind

/-- Where the last node is no element without an end tag, any place will do. -/
theorem Snug.of_none (h : Snug none ns) : Snug place ns :=
  ⟨h.chain, fun n hn hunended => absurd (h.last n hn hunended) nofun⟩

/-- A neighbour for the last node. -/
theorem Snug.concat (h : Snug place ns) (hn : ∀ a ∈ place, n.start = a ∧ n.isBorder = true)
    (hlast : n.Unended → place' = some n.stop) : Snug place' (ns ++ [n]) := by
  constructor
  · refine List.isChain_append.2 ⟨h.chain, .singleton n, fun x hx y hy hunended => ?_⟩
    obtain rfl := Option.some.inj hy
    exact hn x.stop (h.last x hx hunended)
  · intro x hx hunended
    rw [List.getLast?_concat] at hx
    obtain rfl := Option.some.inj hx
    exact hlast hunended

/-- A node in front that is no element. -/
theorem Snug.cons (h : Snug place ns) (hn : n.kind ≠ .element) : Snug place (n :: ns) := by
  constructor
  · refine List.isChain_cons.2 ⟨fun m _ hunended => ?_, h.chain⟩
    exact absurd hunended (not_unended_of_kind hn)
  · intro x hx hunended
    cases ns with
    | nil =>
        obtain rfl := Option.some.inj hx
        exact absurd hunended (not_unended_of_kind hn)
    | cons m ms =>
        rw [List.getLast?_cons_cons] at hx
        exact h.last x hx hunended

/-- Nodes that are no elements are side by side in any case. -/
theorem snug_of_elementless (h : ∀ n ∈ ns, n.kind ≠ .element) : Snug place ns := by
  induction ns with
  | nil => exact snug_nil
  | cons n ns ih =>
      rw [List.forall_mem_cons] at h
      exact (ih h.2).cons h.1

/-- A node in which elements without an end tag reach up to their
neighbours, and the last one up to the end of the node. -/
def Node.Tight (n : Node) : Prop := Snug (some n.stop) n.children

/-- A node without elements has no element without an end tag. -/
theorem Node.Elementless.tight (h : n.Elementless) : ∀ m ∈ walk [n], m.Tight := by
  intro m hm
  refine snug_of_elementless fun c hc => h c ?_
  exact Node.mem_walk_children hm (Node.mem_walk_of_mem hc)

-- ============================================================== stack

/-- The children of open elements and what is finished outside of them. The
place is where the tag that is being read begins; further out it is the tag
of the next open element. -/
def FramesSnug (finished : List Node) : Option Nat → List Frame → Prop
  | place, [] => Snug place finished.reverse
  | place, f :: fs => f.tag.kind ≠ .element ∧ Snug place f.children.reverse
      ∧ FramesSnug finished (some f.tag.start) fs

/-- Frames that are tight wherever the next tag begins are so where it does.
-/
theorem FramesSnug.of_none {finished : List Node} {fs : List Frame}
    (h : FramesSnug finished none fs) : FramesSnug finished place fs := by
  cases fs with
  | nil => exact Snug.of_none h
  | cons f fs => exact ⟨h.1, h.2.1.of_none, h.2.2⟩

namespace Nest

/-- A stack in which elements without an end tag reach up to their
neighbours. -/
structure Tight (place : Option Nat) (s : Nest) : Prop where
  frames : FramesSnug s.finished place s.frames
  nodes : ∀ n ∈ s.nodes, ∀ m ∈ walk [n], m.Tight

variable {s : Nest}

theorem Tight.of_none (h : s.Tight none) : s.Tight place := ⟨h.frames.of_none, h.nodes⟩

/-- A node that begins where an element without an end tag ends can be
added. -/
theorem Tight.add (h : s.Tight place) (hn : ∀ m ∈ walk [n], m.Tight)
    (hstart : ∀ a ∈ place, n.start = a ∧ n.isBorder = true)
    (hlast : n.Unended → place' = some n.stop) : (s.add n).Tight place' where
  frames := by
    obtain ⟨frames, finished⟩ := s
    have hframes := h.frames
    cases frames with
    | nil =>
        show Snug place' (n :: finished).reverse
        rw [List.reverse_cons]
        exact Snug.concat hframes hstart hlast
    | cons f fs =>
        refine ⟨hframes.1, ?_, hframes.2.2⟩
        show Snug place' (n :: f.children).reverse
        rw [List.reverse_cons]
        exact hframes.2.1.concat hstart hlast
  nodes := by
    intro r hr
    rcases mem_nodes_add.1 hr with rfl | hr
    · exact hn
    · exact h.nodes r hr

/-- An element that closes, when its last nodes end where it does. -/
theorem tight_close {stop : Nat} {last : List Node} {f : Frame} {fs : List Frame}
    {finished : List Node} (h : Tight place ⟨f :: fs, finished⟩)
    (hinside : ∀ ns, Snug place ns → Snug (some stop) (ns ++ last))
    (hlast : ∀ m ∈ walk last, m.Tight)
    (hunended : (closed stop last f).Unended → place' = some stop) :
    (close stop last ⟨f :: fs, finished⟩).Tight place' := by
  obtain ⟨⟨htag, hchildren, hframes⟩, hnodes⟩ := h
  have hrest : Tight (some f.tag.start) ⟨fs, finished⟩ :=
    ⟨hframes, fun r hr => hnodes r (mem_nodes_cons.2 (.inr hr))⟩
  have hall : ∀ m ∈ walk (closed stop last f).children, m.Tight := by
    rw [show (closed stop last f).children = (f.tag :: f.children.reverse) ++ last from rfl,
      walk_append, List.forall_mem_append]
    refine ⟨forall_mem_walk.2 fun r hr => hnodes r (mem_nodes_cons.2 (.inl ?_)), hlast⟩
    simpa using hr
  refine hrest.add (n := closed stop last f) ?_ (fun a ha => ⟨Option.some.inj ha, rfl⟩) hunended
  rw [walk_singleton]
  exact List.forall_mem_cons.2 ⟨(hinside _ hchildren).cons htag, hall⟩

/-- Settling closes elements where the next tag begins. -/
theorem Tight.settle {ends : Ends} {stop : Nat} (h : s.Tight (some stop)) :
    (s.settle ends stop).Tight (some stop) := by
  refine settle_induction h fun s hs => ?_
  obtain ⟨frames, finished⟩ := s
  cases frames with
  | nil => exact hs
  | cons f fs =>
      refine tight_close hs (fun ns hns => ?_) ?_ fun _ => rfl
      · rwa [List.append_nil]
      · exact forall_mem_walk.2 (List.forall_mem_nil _)

/-- What begins where the innermost elements ended. -/
theorem Tight.add_border {a : Nat} (h : s.Tight (some a)) (hn : n.Elementless) (hstart : n.start = a)
    (hborder : n.isBorder = true) : (s.add n).Tight none := by
  refine h.add hn.tight (fun b hb => ⟨?_, hborder⟩) fun hunended => ?_
  · rw [hstart]
    exact Option.some.inj hb
  · exact absurd hunended (not_unended_of_kind hn.kind)

theorem elementless_label {kind : Kind} {start stop : Nat} {label : Node} (hkind : kind ≠ .element)
    (h : label.Elementless) : (Node.branch kind start stop [label]).Elementless :=
  elementless_branch hkind (List.forall_mem_singleton.2 h)

/-- Pieces without malformed places keep elements without an end tag beside
their neighbours. -/
theorem Tight.step {t : Text} {p : Piece} (h : s.Tight none) (hp : p.Formed t)
    (hflawless : p.Flawless) : (s.step p).Tight none := by
  cases p with
  | plain node =>
      refine h.add (Node.Elementless.tight hp) nofun fun hunended => ?_
      exact absurd hunended (not_unended_of_kind hp.kind)
  | opening name tight tag =>
      obtain ⟨-, htag, -, -⟩ := hp
      have hs : (s.settle (beforeOpening name tight) tag.start).Tight (some tag.start) := h.of_none.settle
      refine ⟨⟨htag.kind, snug_nil, hs.frames⟩, fun r hr => ?_⟩
      rcases mem_nodes_cons.1 hr with (rfl | hr) | hr
      · exact htag.tight
      · cases hr
      · exact hs.nodes r hr
  | complete name tight element =>
      obtain ⟨tag, hkind, hchildren, htag, hinside⟩ := hp
      have hs : (s.settle (beforeOpening name tight) element.start).Tight (some element.start) :=
        h.of_none.settle
      -- it ends with its own tag, so it is never one without an end tag
      refine hs.add (fun m hm => ?_) (fun a ha => ?_) fun hunended => ?_
      · rw [walk_singleton, hchildren] at hm
        rcases List.mem_cons.1 hm with rfl | hm
        · rw [Node.Tight, hchildren]
          exact snug_of_elementless (List.forall_mem_singleton.2 hinside.kind)
        · exact hinside.tight m hm
      · refine ⟨Option.some.inj ha, ?_⟩
        rw [Node.isBorder, hkind]
      · have hopened := hunended.opened
        rw [Node.openingTag, hchildren, List.headD_cons, htag] at hopened
        cases hopened
  | raw name tight element =>
      obtain ⟨hkind, helement⟩ := hp
      have hs : (s.settle (beforeOpening name tight) element.start).Tight (some element.start) :=
        h.of_none.settle
      unfold Nest.step
      dsimp only
      split
      · refine hs.add_border helement rfl ?_
        rcases hkind with hkind | hkind
        · rw [Node.isBorder, hkind]
        · rw [Node.isBorder, hkind]
      · exact hs.add_border (elementless_fault _ _) rfl rfl
  | closing name tight start stop label =>
      have hs : (s.settle (beforeClosing name tight) start).Tight (some start) := h.of_none.settle
      unfold Nest.step
      dsimp only
      split
      · exact hs.add_border (elementless_fault _ _) rfl rfl
      · next f fs hframes =>
          split
          · have htag : (Node.branch .endTag start stop [label]).Elementless :=
              elementless_label nofun hp
            generalize s.settle (beforeClosing name tight) start = s at hs hframes
            obtain ⟨frames, finished⟩ := s
            obtain rfl : frames = f :: fs := hframes
            -- with an end tag the element is no longer one without
            refine tight_close hs (fun ns hns => ?_) htag.tight fun hunended => ?_
            · refine hns.concat (fun a ha => ⟨Option.some.inj ha, rfl⟩) fun hunended => ?_
              exact absurd hunended (not_unended_of_kind nofun)
            · exact absurd rfl (hunended.unclosed (.branch .endTag start stop [label])
                (List.mem_append_right _ List.mem_cons_self))
          · exact hs.add_border (elementless_label nofun hp) rfl rfl
  -- a tag that is cut has a fault
  | unfinished name tight place tag => exact hflawless.elim
  | final node => exact hflawless.elim

/-- Flawless pieces keep a stack tight, by induction over them. -/
theorem Tight.foldl {t : Text} {ps : List Piece} (h : s.Tight none) (hps : ∀ p ∈ ps, p.Formed t)
    (hflawless : ∀ p ∈ ps, p.Flawless) : (ps.foldl Nest.step s).Tight none := by
  induction ps generalizing s with
  | nil => exact h
  | cons p ps ih =>
      rw [List.forall_mem_cons] at hps hflawless
      exact ih (h.step hps.1 hflawless.1) hps.2 hflawless.2

/-- What is left open ends with what stands last in it. -/
theorem stop_of_getLast? {f : Frame} (h : n ∈ (f.tag :: f.children.reverse).getLast?) :
    lastStop f = n.stop := by
  unfold lastStop
  cases hchildren : f.children with
  | nil =>
      rw [hchildren] at h
      obtain rfl := Option.some.inj h
      rfl
  | cons m ms =>
      rw [hchildren, List.reverse_cons, ← List.cons_append, List.getLast?_concat] at h
      obtain rfl := Option.some.inj h
      rfl

/-- The nodes of a tight stack are tight at the end of the text. -/
theorem Tight.leave (h : s.Tight none) (u : Text) :
    Snug (some u.length) (s.leave u) ∧ ∀ n ∈ walk (s.leave u), n.Tight := by
  have hs : (s.settle beforeEnd u.length).Tight (some u.length) := h.of_none.settle
  unfold Nest.leave
  dsimp only
  generalize s.settle beforeEnd u.length = s at hs
  obtain ⟨frames, finished⟩ := s
  match frames with
  | [] => exact ⟨hs.frames, forall_mem_walk.2 fun r hr => hs.nodes r (List.mem_reverse.1 hr)⟩
  | [f] =>
      obtain ⟨⟨htag, hchildren, hfinished⟩, hnodes⟩ := hs
      have hopen : (leftOpen f).Tight := by
        obtain ⟨hchain, -⟩ := hchildren.cons htag
        exact ⟨hchain, fun n hn _ => congrArg some (stop_of_getLast? hn)⟩
      dsimp only
      rw [List.reverse_cons]
      constructor
      · refine Snug.concat hfinished (fun a ha => ⟨Option.some.inj ha, rfl⟩) fun hunended => ?_
        exact absurd hunended.ended nofun
      · rw [walk_append, walk_singleton, List.forall_mem_append, List.forall_mem_cons]
        refine ⟨forall_mem_walk.2 fun r hr => ?_, hopen, forall_mem_walk.2 fun r hr => ?_⟩
        · exact hnodes r (mem_nodes_cons.2 (.inr (List.mem_reverse.1 hr)))
        · exact hnodes r (mem_nodes_cons.2 (.inl (by simpa [leftOpen] using hr)))
  | f :: g :: fs =>
      have hclosed : (closeAll u.length ⟨f :: g :: fs, finished⟩).Tight (some u.length) := hs.settle
      have hframes := frames_closeAll u.length ⟨f :: g :: fs, finished⟩
      dsimp only
      generalize closeAll u.length ⟨f :: g :: fs, finished⟩ = s at hclosed hframes
      obtain ⟨_, finished⟩ := s
      cases hframes
      have hall := hclosed.add_border (n := .broken .fault u.length u.length)
        (elementless_fault _ _) rfl rfl
      exact ⟨Snug.of_none hall.frames,
        forall_mem_walk.2 fun r hr => hall.nodes r (List.mem_reverse.1 hr)⟩

end Nest

/-- In the tree of a text without malformed places elements without an end
tag reach up to their neighbours. -/
theorem parse_tight {t : Text} (h : faults (parse t).children = []) :
    ∀ n ∈ walk [parse t], n.Tight := by
  have hbare := (Nest.not_isFault_of_finish (nest_sound t) (Nat.le_refl _) h).1
  have hempty : Nest.Tight none ⟨[], []⟩ := ⟨snug_nil, nofun⟩
  have hnest : (nest t).Tight none :=
    hempty.foldl (pieces_formed rfl) (flawless_of_faults h)
  obtain ⟨hchildren, hall⟩ := hnest.leave t
  rw [← Nest.finish_of_not_bare hbare, ← children_parse] at hchildren hall
  rw [walk_singleton]
  exact List.forall_mem_cons.2 ⟨hchildren, hall⟩

end KeyHarvest.Markup
