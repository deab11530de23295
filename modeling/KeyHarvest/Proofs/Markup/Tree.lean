/-
What the pieces of a text leave in its tree. Whatever a piece adds stays
in the stack, inside one element or another, up to the end of the text
(`mem_walk_foldl`), so a malformed piece is found in the tree. In a tree
without malformed places every piece was flawless (`flawless_of_faults`),
and no tag was too bare to be an element.

A tree whose last node ends with an end tag was complete before the text
ended: nothing was open any more (`frames_of_endTag`).
-/
import KeyHarvest.Proofs.Markup.Extent
import KeyHarvest.Proofs.Markup.Nest

namespace KeyHarvest.Markup

open Node (walk faults AllSound mem_walk)

-- ============================================================== nodes

namespace Nest

variable {limit : Nat} {s : Nest}

/-- The nodes of a stack: tags and children of the open elements, and
what is finished outside of them. -/
def nodes (s : Nest) : List Node :=
  (s.frames.flatMap fun f => f.tag :: f.children) ++ s.finished

theorem mem_nodes_add {m n : Node} : m ∈ (s.add n).nodes ↔ m = n ∨ m ∈ s.nodes := by
  obtain ⟨frames, finished⟩ := s
  cases frames with
  | nil => simp [nodes, add]
  | cons f fs =>
      simp only [nodes, add, List.flatMap_cons, List.mem_append, List.mem_cons]
      grind

/-- The element that closing makes. -/
def closed (stop : Nat) (last : List Node) (f : Frame) : Node :=
  .branch .element f.tag.start stop (f.tag :: f.children.reverse ++ last)

/-- Closing puts one element in the place of the innermost frame. -/
theorem mem_nodes_close {m : Node} {stop : Nat} {last : List Node} {f : Frame} {fs : List Frame}
    (h : s.frames = f :: fs) :
    m ∈ (s.close stop last).nodes ↔ m = closed stop last f ∨ m ∈ nodes ⟨fs, s.finished⟩ := by
  unfold close
  rw [h]
  exact mem_nodes_add

theorem mem_nodes_cons {m : Node} {f : Frame} {fs : List Frame} {finished : List Node} :
    m ∈ nodes ⟨f :: fs, finished⟩
      ↔ (m = f.tag ∨ m ∈ f.children) ∨ m ∈ nodes ⟨fs, finished⟩ := by
  simp [nodes, or_assoc]

-- ========================================================= soundness

/-- Every node of a stack is sound, and none is an end tag: those stand
only at the end of closed elements. -/
def Sound (limit : Nat) (s : Nest) : Prop :=
  ∀ n ∈ s.nodes, AllSound limit [n] ∧ n.kind ≠ .endTag

/-- A sound node that is no end tag can be added. -/
theorem Sound.add {n : Node} (h : s.Sound limit) (hn : AllSound limit [n])
    (hkind : n.kind ≠ .endTag) : (s.add n).Sound limit := by
  intro m hm
  rcases mem_nodes_add.1 hm with rfl | hm
  · exact ⟨hn, hkind⟩
  · exact h m hm

/-- Closing the innermost element keeps a stack sound. -/
theorem Sound.close {stop : Nat} {last : List Node} (h : s.Sound limit) (hstop : stop ≤ limit)
    (hlast : AllSound limit last) : (s.close stop last).Sound limit := by
  obtain ⟨frames, finished⟩ := s
  cases frames with
  | nil => exact h
  | cons f fs =>
      have htag := (h f.tag (mem_nodes_cons.2 (.inl (.inl rfl)))).1
      have hchildren : AllSound limit f.children :=
        Node.allSound_iff.2 fun n hn => (h n (mem_nodes_cons.2 (.inl (.inr hn)))).1
      intro m hm
      rcases (mem_nodes_close rfl).1 hm with rfl | hm
      · refine ⟨Node.allSound_branch rfl ?_ hstop ?_, nofun⟩
        · exact (htag f.tag (Node.mem_walk_of_mem (by simp))).start_le
        · refine Node.allSound_append.2 ⟨Node.allSound_cons.2 ⟨htag, ?_⟩, hlast⟩
          refine Node.allSound_iff.2 fun n hn => ?_
          exact Node.allSound_iff.1 hchildren n (List.mem_reverse.1 hn)
      · exact h m (mem_nodes_cons.2 (.inr hm))

/-- Settling keeps a stack sound. -/
theorem Sound.settle {ends : Ends} {stop : Nat} (h : s.Sound limit) (hstop : stop ≤ limit) :
    (s.settle ends stop).Sound limit :=
  settle_induction h fun _ hs => hs.close hstop (by simp [AllSound, walk])

/-- Pieces keep a stack sound. -/
theorem Sound.step {p : Piece} (h : s.Sound limit) (hp : p.Sound limit) :
    (s.step p).Sound limit := by
  have hstart : ∀ n, AllSound limit [n] → n.start ≤ limit := fun n hn =>
    (hn n (Node.mem_walk_of_mem (by simp))).start_le
  have hstop : ∀ n, AllSound limit [n] → n.stop ≤ limit := fun n hn =>
    (hn n (Node.mem_walk_of_mem (by simp))).stop_le
  cases p with
  | plain node => exact h.add hp.1 hp.2
  | opening name tight tag =>
      have hs : (s.settle (beforeOpening name tight) tag.start).Sound limit :=
        h.settle (hstart tag hp.1)
      intro m hm
      rcases mem_nodes_cons.1 hm with (rfl | hm) | hm
      · exact ⟨hp.1, by rw [show _ = _ from hp.2]; rintro ⟨⟩⟩
      · cases hm
      · exact hs m hm
  | complete name tight element =>
      exact (h.settle (hstart element hp.1)).add hp.1 (by rw [hp.2]; rintro ⟨⟩)
  | raw name tight element =>
      refine (h.settle (hstart element hp.1)).add ?_ ?_
      · split
        · exact hp.1
        · exact Node.allSound_broken rfl (hstart element hp.1) (hstop element hp.1)
      · split
        · exact hp.2
        · rintro ⟨⟩
  | closing name tight start stop label =>
      obtain ⟨hstart, hstop, hlabel⟩ := hp
      have hs : (s.settle (beforeClosing name tight) start).Sound limit := h.settle hstart
      have htag : ∀ kind, (Node.branch kind start stop [label]).isFault = false →
          AllSound limit [.branch kind start stop [label]] := fun kind hkind =>
        Node.allSound_branch hkind hstart hstop hlabel
      unfold Nest.step
      dsimp only
      split
      · exact hs.add (Node.allSound_broken rfl hstart hstop) (by rintro ⟨⟩)
      · split
        · exact hs.close hstop (htag .endTag rfl)
        · exact hs.add (htag .strayEndTag rfl) (by rintro ⟨⟩)
  | unfinished name tight place tag =>
      obtain ⟨hplace, htag, hkind⟩ := hp
      have hs : ((s.settle (beforeOpening name tight) tag.start).closeAll tag.start).Sound limit :=
        (h.settle (hstart tag htag)).settle (hstart tag htag)
      refine hs.add (Node.allSound_branch ?_ (hstart tag htag) (hstop tag htag) ?_) ?_
      · rw [Node.isFault, hkind]
        -- the node keeps the kind of a start tag
        rfl
      · refine Node.allSound_append.2 ⟨(Node.allSound_singleton.1 htag).2, ?_⟩
        refine Node.allSound_absent ?_ hplace
        rw [missedEnd]
        split <;> decide
      · rw [hkind]
        rintro ⟨⟩
  | final node => exact (h.settle (hstart node hp.1)).add hp.1 hp.2.2

/-- Sound pieces keep a stack sound, by induction over them. -/
theorem Sound.foldl {ps : List Piece} (h : s.Sound limit) (hps : ∀ p ∈ ps, p.Sound limit) :
    (ps.foldl Nest.step s).Sound limit := by
  induction ps generalizing s with
  | nil => exact h
  | cons p ps ih =>
      exact ih (h.step (hps p (by simp))) fun q hq => hps q (by simp [hq])

-- ======================================================== persistence

/-- A new node hides none. -/
theorem mem_walk_add {m n : Node} (h : m ∈ walk s.nodes) : m ∈ walk (s.add n).nodes := by
  obtain ⟨r, hr, hm⟩ := mem_walk.1 h
  exact mem_walk.2 ⟨r, mem_nodes_add.2 (.inr hr), hm⟩

/-- What stood in an open element stands in the closed one. -/
theorem mem_walk_close {m : Node} {stop : Nat} {last : List Node} (h : m ∈ walk s.nodes) :
    m ∈ walk (s.close stop last).nodes := by
  obtain ⟨frames, finished⟩ := s
  cases frames with
  | nil => exact h
  | cons f fs =>
      obtain ⟨r, hr, hm⟩ := mem_walk.1 h
      rcases mem_nodes_cons.1 hr with hr | hr
      · refine mem_walk.2 ⟨closed stop last f, (mem_nodes_close rfl).2 (.inl rfl), ?_⟩
        refine Node.mem_walk_of_mem_children (mem_walk.2 ⟨r, ?_, hm⟩)
        show r ∈ f.tag :: f.children.reverse ++ last
        rcases hr with rfl | hr <;> simp [*]
      · exact mem_walk.2 ⟨r, (mem_nodes_close rfl).2 (.inr hr), hm⟩

/-- Settling keeps every node, maybe below another one. -/
theorem mem_walk_settle {m : Node} {ends : Ends} {stop : Nat} (h : m ∈ walk s.nodes) :
    m ∈ walk (s.settle ends stop).nodes :=
  settle_induction (P := fun s => m ∈ walk s.nodes) h fun _ hs => mem_walk_close hs

/-- What stands in a stack stays in it. -/
theorem mem_walk_step {m : Node} {p : Piece} (h : m ∈ walk s.nodes) :
    m ∈ walk (s.step p).nodes := by
  cases p with
  | plain node => exact mem_walk_add h
  | opening name tight tag =>
      have hs : m ∈ walk (s.settle (beforeOpening name tight) tag.start).nodes := mem_walk_settle h
      obtain ⟨r, hr, hm⟩ := mem_walk.1 hs
      exact mem_walk.2 ⟨r, mem_nodes_cons.2 (.inr hr), hm⟩
  | complete name tight element => exact mem_walk_add (mem_walk_settle h)
  | raw name tight element => exact mem_walk_add (mem_walk_settle h)
  | closing name tight start stop label =>
      unfold step
      dsimp only
      split
      · exact mem_walk_add (mem_walk_settle h)
      · split
        · exact mem_walk_close (mem_walk_settle h)
        · exact mem_walk_add (mem_walk_settle h)
  | unfinished name tight place tag => exact mem_walk_add (mem_walk_settle (mem_walk_settle h))
  | final node => exact mem_walk_add (mem_walk_settle h)

/-- Pieces keep every node that is there, maybe below another one. -/
theorem mem_walk_foldl {m : Node} {ps : List Piece} (h : m ∈ walk s.nodes) :
    m ∈ walk (ps.foldl step s).nodes := by
  induction ps generalizing s with
  | nil => exact h
  | cons p ps ih => exact ih (mem_walk_step h)

end Nest

/-- A piece with nothing malformed in it. -/
def Piece.Flawless : Piece → Prop
  | .plain node => node.flawed = false
  | .opening _ _ tag => tag.flawed = false
  | .complete _ _ element => element.flawed = false
  | .raw _ _ element => element.flawed = false
  | .closing .. => True
  | .unfinished .. => False
  | .final _ => False

namespace Nest

variable {limit : Nat} {s : Nest}

/-- A node that is added with a raised flag has a fault below it. -/
theorem exists_fault_add {n : Node} (hn : AllSound limit [n]) (h : n.flawed = true) :
    ∃ m ∈ walk (s.add n).nodes, m.isFault = true := by
  obtain ⟨m, hm, hfault⟩ := Node.exists_isFault_of_flawed hn h
  exact ⟨m, mem_walk.2 ⟨n, mem_nodes_add.2 (.inl rfl), hm⟩, hfault⟩

/-- A malformed piece leaves a malformed place. -/
theorem exists_fault_step {p : Piece} (hp : p.Sound limit) (h : ¬ p.Flawless) :
    ∃ m ∈ walk (s.step p).nodes, m.isFault = true := by
  cases p with
  | plain node => exact exists_fault_add hp.1 (by simpa [Piece.Flawless] using h)
  | opening name tight tag =>
      obtain ⟨m, hm, hfault⟩ := Node.exists_isFault_of_flawed hp.1
        (by simpa [Piece.Flawless] using h)
      exact ⟨m, mem_walk.2 ⟨tag, mem_nodes_cons.2 (.inl (.inl rfl)), hm⟩, hfault⟩
  | complete name tight element => exact exists_fault_add hp.1 (by simpa [Piece.Flawless] using h)
  | raw name tight element =>
      unfold step
      dsimp only
      split
      · exact exists_fault_add hp.1 (by simpa [Piece.Flawless] using h)
      · exact ⟨_, Node.mem_walk_of_mem (mem_nodes_add.2 (.inl rfl)), rfl⟩
  | closing name tight start stop label => exact absurd trivial h
  | unfinished name tight place tag =>
      have hmissed : ∀ (token : Text) (s : Nest),
          ∃ m ∈ walk (s.add (.branch tag.kind tag.start tag.stop
            (tag.children ++ [.broken (.absent token) place place]))).nodes, m.isFault = true := by
        intro token s
        refine ⟨.broken (.absent token) place place,
          mem_walk.2 ⟨_, mem_nodes_add.2 (.inl rfl), ?_⟩, rfl⟩
        refine Node.mem_walk_of_mem_children (Node.mem_walk_of_mem ?_)
        exact List.mem_append_right _ (List.mem_singleton.2 rfl)
      exact hmissed _ _
  | final node => exact exists_fault_add hp.1 hp.2.1

/-- A stack without malformed places was filled by flawless pieces. -/
theorem flawless_of_foldl {ps : List Piece} (hps : ∀ p ∈ ps, p.Sound limit)
    (h : ∀ m ∈ walk (ps.foldl step s).nodes, m.isFault = false) : ∀ p ∈ ps, p.Flawless := by
  intro p hp
  obtain ⟨before, after, rfl⟩ := List.append_of_mem hp
  rw [List.foldl_append, List.foldl_cons] at h
  by_cases hflawless : p.Flawless
  · exact hflawless
  · obtain ⟨m, hm, hfault⟩ := exists_fault_step (s := before.foldl step s) (hps p hp) hflawless
    rw [h m (mem_walk_foldl hm)] at hfault
    cases hfault

-- ============================================================ the end

/-- Closing everything leaves no element open. -/
theorem frames_closeAll (stop : Nat) (s : Nest) : (s.closeAll stop).frames = [] := by
  unfold closeAll
  induction s using settle_cases (fun _ _ => true) stop with
  | closed s hframes => rw [settle_of_closed hframes, hframes]
  | ended s f fs hframes hends ih => rwa [settle_of_ends hframes hends]
  | stays s f fs hframes hends => exact absurd rfl hends

/-- What holds of sound nodes and of an element that is left open holds of
all nodes of a text at its end. -/
theorem forall_walk_finish {P : Node → Prop} {t : Text} (hs : s.Sound limit)
    (ht : t.length ≤ limit) (sound : ∀ n, n.Sound limit → P n) (opened : ∀ f, P (leftOpen f)) :
    ∀ n ∈ walk (s.finish t), P n := by
  have hsettled : (s.settle beforeEnd t.length).Sound limit := hs.settle ht
  have hnodes : ∀ {s : Nest}, s.Sound limit → ∀ n ∈ s.nodes, ∀ m ∈ walk [n], P m :=
    fun hs n hn m hm => sound m ((hs n hn).1 m hm)
  have hfault : ∀ start stop, start ≤ limit → stop ≤ limit →
      ∀ m ∈ walk [Node.broken .fault start stop], P m :=
    fun start stop hstart hstop m hm => sound m (Node.allSound_broken rfl hstart hstop m hm)
  rw [Node.forall_mem_walk]
  intro n hn
  unfold finish at hn
  dsimp only at hn
  generalize s.settle beforeEnd t.length = s at hsettled hn
  obtain ⟨frames, finished⟩ := s
  match frames with
  -- nothing is open
  | [] => exact hnodes hsettled n (by simpa [nodes] using hn)
  | [f] =>
      -- one element is open: it ends here, or its tag is taken back as malformed
      have hinside : ∀ c ∈ f.tag :: f.children.reverse, ∀ m ∈ walk [c], P m :=
        fun c hc => hnodes hsettled c (mem_nodes_cons.2 (.inl (by simpa using hc)))
      have hfinished : ∀ c ∈ finished, ∀ m ∈ walk [c], P m :=
        fun c hc => hnodes hsettled c (by simp [nodes, hc])
      dsimp only at hn
      split at hn
      · simp only [List.reverse_append, List.reverse_cons, List.mem_append, List.mem_reverse,
          List.mem_singleton] at hn
        rcases hn with (hn | rfl) | hn
        · exact hfinished n hn
        · have htag := (hsettled f.tag (mem_nodes_cons.2 (.inl (.inl rfl)))).1 f.tag
            (Node.mem_walk_of_mem List.mem_cons_self)
          exact hfault f.tag.start f.tag.stop htag.start_le htag.stop_le
        · exact hinside n (by simp [hn])
      · simp only [List.reverse_cons, List.mem_append, List.mem_reverse,
          List.mem_singleton] at hn
        rcases hn with hn | rfl
        · exact hfinished n hn
        · rw [Node.walk_singleton, List.forall_mem_cons, Node.forall_mem_walk]
          exact ⟨opened f, hinside⟩
  | f :: g :: fs =>
      -- several are open: all are closed, and the end is malformed
      have hframes := frames_closeAll t.length ⟨f :: g :: fs, finished⟩
      have hclosed : (closeAll t.length ⟨f :: g :: fs, finished⟩).Sound limit :=
        hsettled.settle ht
      dsimp only at hn
      rw [add, hframes] at hn
      simp only [List.reverse_cons, List.mem_append, List.mem_reverse,
        List.mem_singleton] at hn
      rcases hn with hn | rfl
      · exact hnodes hclosed n (by simp [nodes, hn])
      · exact hfault t.length t.length ht ht

/-- A malformed place of a document is marked as one. -/
theorem flawed_of_finish {t : Text} {n : Node} (hs : s.Sound limit) (ht : t.length ≤ limit)
    (hn : n ∈ s.finish t) (h : n.isFault = true) : n.flawed = true := by
  refine forall_walk_finish (P := fun n => n.isFault = true → n.flawed = true) hs ht ?_ ?_ n
    (Node.mem_walk_of_mem hn) h
  · intro n hn hfault
    rw [hn.flag, hfault]
    rfl
  · exact fun f _ => rfl

/-- At the end of a text without malformed places no tag is too bare, and
nothing malformed was in the stack. -/
theorem not_isFault_of_finish {t : Text} (hs : s.Sound limit) (ht : t.length ≤ limit)
    (h : faults (s.finish t) = []) :
    ¬ s.Bare t ∧ ∀ m ∈ walk s.nodes, m.isFault = false := by
  have hsettled : (s.settle beforeEnd t.length).Sound limit := hs.settle ht
  have hkept : ∀ m ∈ walk s.nodes, m ∈ walk (s.settle beforeEnd t.length).nodes :=
    fun m hm => mem_walk_settle hm
  -- it is enough to look at the stack where the text ends
  suffices hend : ¬ s.Bare t ∧ ∀ m ∈ walk (s.settle beforeEnd t.length).nodes, m.isFault = false from
    ⟨hend.1, fun m hm => hend.2 m (hkept m hm)⟩
  unfold Bare
  unfold finish at h
  dsimp only at h
  generalize s.settle beforeEnd t.length = s at hsettled h ⊢
  obtain ⟨frames, finished⟩ := s
  have hall : ∀ ns : List Node, (∀ n ∈ ns, n ∈ nodes ⟨frames, finished⟩) → faults ns = [] →
      ∀ m ∈ walk ns, m.isFault = false := fun ns hns hfaults =>
    Node.not_isFault_of_faults (Node.allSound_iff.2 fun n hn => (hsettled n (hns n hn)).1) hfaults
  match frames with
  | [] =>
      refine ⟨nofun, ?_⟩
      intro m hm
      obtain ⟨r, hr, hm⟩ := mem_walk.1 hm
      refine hall finished.reverse (by simp [nodes]) h m (mem_walk.2 ⟨r, ?_, hm⟩)
      simpa [nodes] using hr
  | [f] =>
      dsimp only at h
      split at h
      · have hmem : Node.broken .fault f.tag.start f.tag.stop ∈ faults
            (f.children ++ .broken .fault f.tag.start f.tag.stop :: finished).reverse :=
          Node.mem_faults (by simp) rfl
        rw [h] at hmem
        cases hmem
      · rename_i hbare
        have hopen : faults [leftOpen f] = faults (f.tag :: f.children.reverse) := by
          rw [faults, if_neg (by simp [leftOpen, Node.isFault]),
            if_pos (show (leftOpen f).flawed = true from rfl), List.append_nil]
          rfl
        have hlist : faults (finished.reverse ++ (f.tag :: f.children.reverse)) = [] := by
          rw [List.reverse_cons, Node.faults_append] at h
          rw [Node.faults_append, ← hopen]
          exact h
        refine ⟨?_, ?_⟩
        · rintro ⟨g, hg, hg'⟩
          cases hg
          exact hbare hg'
        · intro m hm
          obtain ⟨r, hr, hm⟩ := mem_walk.1 hm
          refine hall _ ?_ hlist m (mem_walk.2 ⟨r, ?_, hm⟩)
          · intro n hn
            simp only [nodes, List.flatMap_cons, List.flatMap_nil, List.mem_append, List.mem_cons,
              List.mem_reverse] at hn ⊢
            grind
          · simp only [nodes, List.flatMap_cons, List.flatMap_nil, List.mem_append, List.mem_cons,
              List.mem_reverse] at hr ⊢
            grind
  | f :: g :: fs =>
      have hframes := frames_closeAll t.length ⟨f :: g :: fs, finished⟩
      dsimp only at h
      rw [add, hframes] at h
      have hmem : Node.broken .fault t.length t.length ∈ faults
          (.broken .fault t.length t.length
            :: (closeAll t.length ⟨f :: g :: fs, finished⟩).finished).reverse :=
        Node.mem_faults (by simp) rfl
      rw [h] at hmem
      cases hmem

/-- When the innermost elements end one after the other, the last of them
has no end tag. -/
theorem head_of_settle {ends : Ends} {stop : Nat} (hs : s.Sound limit) (hstop : stop ≤ limit)
    (hopen : s.frames ≠ []) (hclosed : (s.settle ends stop).frames = []) :
    ∃ e rest, (s.settle ends stop).finished = e :: rest
      ∧ ∀ z, e.children.getLast? = some z → z.kind ≠ .endTag := by
  induction s using settle_cases ends stop with
  | closed s hframes => exact absurd hframes hopen
  | ended s f fs hframes hends ih =>
      obtain ⟨frames, finished⟩ := s
      subst hframes
      rw [settle_of_ends rfl hends] at hclosed ⊢
      cases fs with
      | nil =>
          refine ⟨closed stop [] f, finished, ?_, ?_⟩
          · rw [settle_of_closed]
            · rfl
            · rfl
          intro z hz
          have hmem : z ∈ f.tag :: f.children.reverse ++ [] := List.mem_of_getLast? hz
          refine (hs z (mem_nodes_cons.2 (.inl ?_))).2
          simpa using hmem
      | cons g gs =>
          refine ih (hs.close hstop (by simp [AllSound, walk])) ?_ hclosed
          intro hnil
          have hlength := congrArg List.length hnil
          simp [close] at hlength
  | stays s f fs hframes hends =>
      rw [settle_of_stays hframes hends] at hclosed
      exact absurd hclosed hopen

/-- When the last node of a text ends with an end tag, nothing was open at
the end. -/
theorem frames_of_endTag {t : Text} {e z : Node} (hs : s.Sound limit) (ht : t.length ≤ limit)
    (h : faults (s.finish t) = []) (he : (s.finish t).getLast? = some e)
    (hz : e.children.getLast? = some z) (hkind : z.kind = .endTag) : s.frames = [] := by
  have hbare := (not_isFault_of_finish hs ht h).1
  have hsettled : (s.settle beforeEnd t.length).Sound limit := hs.settle ht
  by_cases hopen : s.frames = []
  · exact hopen
  exfalso
  have hhead : (s.settle beforeEnd t.length).frames = [] → _ := head_of_settle hs ht hopen
  rw [finish_of_not_bare hbare] at h he
  unfold leave at h he
  dsimp only at h he
  generalize s.settle beforeEnd t.length = s at hsettled hhead h he
  obtain ⟨frames, finished⟩ := s
  match frames with
  | [] =>
      obtain ⟨e', rest, hrest, hlast⟩ := hhead rfl
      obtain rfl : finished = e' :: rest := hrest
      simp at he
      exact hlast z (he ▸ hz) hkind
  | [f] =>
      simp at he
      subst he
      have hmem : z ∈ f.tag :: f.children.reverse := List.mem_of_getLast? hz
      refine (hsettled z (mem_nodes_cons.2 (.inl ?_))).2 hkind
      simpa using hmem
  | f :: g :: fs =>
      have hframes := frames_closeAll t.length ⟨f :: g :: fs, finished⟩
      dsimp only at he
      rw [add, hframes] at he
      simp at he
      subst he
      cases hz

end Nest

end KeyHarvest.Markup
