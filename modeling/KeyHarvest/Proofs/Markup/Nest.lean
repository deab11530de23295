/-
The stack of open elements, behind other nodes. Reading pieces further to
the right, with some nodes finished before the first of them, gives the
same elements, further to the right and behind those nodes (`foldl_onto`):
what is finished is never looked at again. The end of the text is the one
exception, where a short tag with nothing but comments around it is no
element left open; more nodes around it can only make it one
(`finish_onto`).
-/
import KeyHarvest.Proofs.Markup.Shift

namespace KeyHarvest.Markup

/-- The same open element further to the right. -/
def Frame.shift (d : Nat) (f : Frame) : Frame :=
  ⟨f.name, f.tag.shift d, f.children.map (Node.shift d)⟩

namespace Nest

-- =========================================================== settling

/-- Without open elements nothing ends. -/
theorem settle_of_closed {ends : Ends} {stop : Nat} {s : Nest} (h : s.frames = []) :
    s.settle ends stop = s := by
  rw [settle]
  split
  · rfl
  · rename_i hframes
    rw [h] at hframes
    cases hframes

/-- One element ends, and others may after it. -/
theorem settle_of_ends {ends : Ends} {stop : Nat} {s : Nest} {f : Frame} {fs : List Frame}
    (h : s.frames = f :: fs) (hends : ends f.name (s.frames.map Frame.name) = true) :
    s.settle ends stop = (s.close stop []).settle ends stop := by
  rw [settle]
  split
  · rename_i hframes
    rw [h] at hframes
    cases hframes
  · rename_i hframes
    rw [h] at hframes
    cases hframes
    rw [if_pos hends]

/-- The innermost element stays open. -/
theorem settle_of_stays {ends : Ends} {stop : Nat} {s : Nest} {f : Frame} {fs : List Frame}
    (h : s.frames = f :: fs) (hends : ¬ ends f.name (s.frames.map Frame.name) = true) :
    s.settle ends stop = s := by
  rw [settle]
  split
  · rfl
  · rename_i hframes
    rw [h] at hframes
    cases hframes
    rw [if_neg hends]

/-- Settling as a case analysis: it is over, or the innermost element ends
first. -/
theorem settle_cases (ends : Ends) (stop : Nat) {P : Nest → Prop}
    (closed : ∀ s : Nest, s.frames = [] → P s)
    (ended : ∀ (s : Nest) f fs, s.frames = f :: fs →
      ends f.name (s.frames.map Frame.name) = true → P (s.close stop []) → P s)
    (stays : ∀ (s : Nest) f fs, s.frames = f :: fs →
      ¬ ends f.name (s.frames.map Frame.name) = true → P s)
    (s : Nest) : P s := by
  have hnames : ∀ fs : List Frame, (fs.attach.map fun ⟨f, _⟩ => f.name) = fs.map Frame.name := by
    intro fs
    show (fs.attach.map fun f => f.val.name) = _
    exact List.attach_map_val
  induction s using settle.induct ends stop with
  | case1 s hframes => exact closed s hframes
  | case2 s f fs hframes hends ih => exact ended s f fs hframes (by rwa [hnames] at hends) ih
  | case3 s f fs hframes hends => exact stays s f fs hframes (by rwa [hnames] at hends)

/-- What closing elements keeps, settling keeps. -/
theorem settle_induction {P : Nest → Prop} {ends : Ends} {stop : Nat} {s : Nest} (hs : P s)
    (hclose : ∀ s, P s → P (s.close stop [])) : P (s.settle ends stop) := by
  induction s using settle_cases ends stop with
  | closed s hframes => rwa [settle_of_closed hframes]
  | ended s f fs hframes hends ih =>
      rw [settle_of_ends hframes hends]
      exact ih (hclose s hs)
  | stays s f fs hframes hends => rwa [settle_of_stays hframes hends]

-- ========================================================= other nodes

variable {d : Nat} {base : List Node}

/-- The same stack further to the right, with other nodes finished before
it, the last of them first. -/
def onto (d : Nat) (base : List Node) (s : Nest) : Nest :=
  ⟨s.frames.map (Frame.shift d), s.finished.map (Node.shift d) ++ base⟩

/-- Moving a stack keeps the names of its open elements. -/
theorem onto_names (s : Nest) :
    (s.onto d base).frames.map Frame.name = s.frames.map Frame.name := by
  unfold onto
  rw [List.map_map]
  rfl

/-- Which name is remembered does not depend on where the stack stands. -/
theorem onto_remember (s : Nest) (name : TagName) :
    (s.onto d base).remember name = s.remember name := by
  unfold remember
  rw [onto_names]

/-- Adding a node commutes with moving. -/
theorem onto_add (n : Node) (s : Nest) :
    (s.onto d base).add (n.shift d) = (s.add n).onto d base := by
  obtain ⟨frames, finished⟩ := s
  cases frames <;> rfl

/-- Closing the innermost element commutes with moving. -/
theorem onto_close (stop : Nat) (last : List Node) (s : Nest) :
    (s.onto d base).close (stop + d) (last.map (Node.shift d)) = (s.close stop last).onto d base := by
  obtain ⟨frames, finished⟩ := s
  cases frames with
  | nil => rfl
  | cons f frames =>
      have helement : Node.branch .element (f.tag.shift d).start (stop + d)
            (f.tag.shift d :: (f.children.map (Node.shift d)).reverse ++ last.map (Node.shift d))
          = (Node.branch .element f.tag.start stop
              (f.tag :: f.children.reverse ++ last)).shift d := by
        simp
      exact (congrArg (fun n => Nest.add n _) helement).trans (onto_add _ ⟨frames, finished⟩)

/-- Settling commutes with moving. -/
theorem onto_settle (ends : Ends) (stop : Nat) (s : Nest) :
    (s.onto d base).settle ends (stop + d) = (s.settle ends stop).onto d base := by
  induction s using settle_cases ends stop with
  | closed s hframes =>
      rw [settle_of_closed hframes, settle_of_closed]
      unfold onto
      rw [hframes]
      rfl
  | ended s f fs hframes hends ih =>
      have hframes' : (s.onto d base).frames = f.shift d :: fs.map (Frame.shift d) := by
        unfold onto
        rw [hframes]
        rfl
      rw [settle_of_ends hframes hends, ← ih, ← onto_close]
      exact settle_of_ends hframes' (by rwa [onto_names])
  | stays s f fs hframes hends =>
      have hframes' : (s.onto d base).frames = f.shift d :: fs.map (Frame.shift d) := by
        unfold onto
        rw [hframes]
        rfl
      rw [settle_of_stays hframes hends]
      exact settle_of_stays hframes' (by rwa [onto_names])

/-- A step commutes with moving. -/
theorem onto_step (s : Nest) (p : Piece) :
    (s.onto d base).step (p.shift d) = (s.step p).onto d base := by
  cases p with
  | plain node => exact onto_add node s
  | opening name tight tag =>
      simp only [Piece.shift, step, Node.shift_start, onto_settle, onto_remember]
      rfl
  | complete name tight element =>
      simp only [Piece.shift, step, Node.shift_start, onto_settle, onto_add]
  | raw name tight element =>
      simp only [Piece.shift, step, Node.shift_start, Node.shift_stop, onto_settle, onto_remember]
      split
      · exact onto_add ..
      · exact onto_add (.broken .fault element.start element.stop) _
  | closing name tight start stop label =>
      simp only [Piece.shift, step, onto_settle]
      generalize s.settle (beforeClosing name tight) start = s
      obtain ⟨frames, finished⟩ := s
      cases frames with
      | nil => rfl
      | cons f fs =>
          show (if f.name = some name then _ else _) = onto d base (if f.name = some name then _ else _)
          split
          · rw [← onto_close]
            simp
          · rw [← onto_add]
            simp
  | unfinished name tight place tag =>
      simp only [Piece.shift, step, Node.shift_start, Node.shift_stop, Node.shift_kind,
        Node.shift_children, onto_settle, onto_remember, closeAll]
      rw [← onto_add, Node.shift_branch, List.map_append]
      rfl
  | final node =>
      simp only [Piece.shift, step, Node.shift_start, onto_settle, closeAll, onto_add]

/-- Reading goes on behind other nodes as it would begin without them. -/
theorem foldl_onto (s : Nest) (ps : List Piece) :
    (ps.map (Piece.shift d)).foldl step (s.onto d base) = (ps.foldl step s).onto d base := by
  induction ps generalizing s with
  | nil => rfl
  | cons p ps ih => rw [List.map_cons, List.foldl_cons, onto_step, ih, List.foldl_cons]

/-- Pieces that open and close nothing are put side by side. -/
theorem foldl_plain (nodes finished : List Node) :
    (nodes.map Piece.plain).foldl Nest.step ⟨[], finished⟩
      = ⟨[], nodes.reverse ++ finished⟩ := by
  induction nodes generalizing finished with
  | nil => rfl
  | cons n nodes ih =>
      rw [List.map_cons, List.foldl_cons]
      show (nodes.map Piece.plain).foldl Nest.step ⟨[], n :: finished⟩ = _
      rw [ih, List.reverse_cons, List.append_assoc]
      rfl

-- ============================================================ the end

theorem finish_of_closed (t : Text) (finished : List Node) :
    Nest.finish t ⟨[], finished⟩ = finished.reverse := by
  unfold Nest.finish
  rw [Nest.settle]

/-- The one open element at the end of a text is a short tag with at most
comments around it. -/
def Bare (t : Text) (s : Nest) : Prop :=
  ∃ f, (s.settle beforeEnd t.length).frames = [f]
    ∧ (s.settle beforeEnd t.length).isBare t f = true

/-- The element that is left open at the end of a text. -/
def leftOpen (f : Frame) : Node :=
  ⟨.element, f.tag.start, lastStop f, true, f.tag :: f.children.reverse⟩

theorem shift_leftOpen (f : Frame) : (leftOpen f).shift d = leftOpen (f.shift d) := by
  have hstop : lastStop (f.shift d) = lastStop f + d := by
    obtain ⟨name, tag, children⟩ := f
    cases children with
    | nil => exact Node.shift_stop tag
    | cons n ns => exact Node.shift_stop n
  unfold leftOpen
  rw [Node.shift, Node.shiftAll_eq_map, hstop]
  simp [Frame.shift]

/-- The nodes of a text at its end, whatever tag is left open. -/
def leave (t : Text) (s : Nest) : List Node :=
  let s := s.settle beforeEnd t.length
  match s.frames with
  | [] => s.finished.reverse
  | [f] => (leftOpen f :: s.finished).reverse
  | _ => ((s.closeAll t.length).add (.broken .fault t.length t.length)).finished.reverse

/-- Without a bare tag nothing is taken back at the end. -/
theorem finish_of_not_bare {t : Text} {s : Nest} (h : ¬ s.Bare t) : s.finish t = s.leave t := by
  unfold Bare at h
  unfold finish leave
  dsimp only at h ⊢
  generalize s.settle beforeEnd t.length = s at h ⊢
  obtain ⟨frames, finished⟩ := s
  match frames with
  | [] => rfl
  | [f] => exact if_neg fun hbare => h ⟨f, rfl, hbare⟩
  | f :: g :: fs => rfl

/-- The end of a text behind another one. -/
theorem leave_onto (pre t : Text) (s : Nest) :
    (s.onto pre.length base).leave (pre ++ t)
      = base.reverse ++ (s.leave t).map (Node.shift pre.length) := by
  unfold leave
  rw [List.length_append, Nat.add_comm, onto_settle]
  generalize s.settle beforeEnd t.length = s
  obtain ⟨frames, finished⟩ := s
  match frames with
  | [] => simp [onto]
  | [f] => simp [onto, shift_leftOpen]
  | f :: g :: fs =>
      show (add (.broken .fault (t.length + pre.length) (t.length + pre.length))
        (settle _ (t.length + pre.length) (onto pre.length base _))).finished.reverse = _
      rw [onto_settle, ← Node.shift_broken, onto_add]
      simp [onto, closeAll]

theorem slice_append (pre t : Text) (a b : Nat) :
    Text.slice (pre ++ t) (a + pre.length) (b + pre.length) = Text.slice t a b := by
  unfold Text.slice
  rw [Nat.add_sub_add_right, Nat.add_comm, List.drop_length_add_append]

/-- More nodes around a tag do not make it bare, unless they are comments
in the place of nodes that are. -/
theorem Bare.of_onto {pre t : Text} {s : Nest} {base' : List Node}
    (hbase : base.all (·.kind = .comment) = true → base'.all (·.kind = .comment) = true)
    (h : (s.onto pre.length base).Bare (pre ++ t)) : (s.onto 0 base').Bare t := by
  have hkind : ∀ d, (fun n : Node => decide (n.kind = .comment)) ∘ Node.shift d
      = fun n => decide (n.kind = .comment) := by
    intro d
    funext n
    simp
  obtain ⟨f', hframes, hbare⟩ := h
  rw [List.length_append, Nat.add_comm, onto_settle] at hframes hbare
  unfold Bare
  rw [← Nat.add_zero t.length, onto_settle]
  generalize s.settle beforeEnd t.length = s at hframes hbare ⊢
  obtain ⟨f, hf, rfl⟩ := List.map_eq_singleton_iff.1 hframes
  refine ⟨f.shift 0, by rw [onto, hf]; rfl, ?_⟩
  simp only [isBare, onto, Frame.shift, Node.shift_start, Node.shift_stop, slice_append,
    Bool.and_eq_true, List.all_append, List.all_map, hkind] at hbare ⊢
  exact ⟨⟨hbare.1.1, hbare.1.2.1, hbase hbare.1.2.2⟩, hbare.2⟩

end Nest

end KeyHarvest.Markup
