/-
Forests of markup nodes. Walks and searches for malformed places go over
the trees of a forest one after the other, so they say the same of a
forest as of its parts (`walk_append`, `faults_append`).

A node is sound when its flag tells the truth about it and its span ends
inside the text (`Sound`). In a forest of sound nodes a search that enters
flagged nodes only finds a malformed place if there is one
(`not_isFault_of_faults`).
-/
import KeyHarvest.Markup.Node

namespace KeyHarvest.Markup.Node

-- ============================================================== walks

theorem walk_append (ns ms : List Node) : walk (ns ++ ms) = walk ns ++ walk ms := by
  induction ns using walk.induct with
  | case1 => rw [walk]; rfl
  | case2 n ns ih =>
      rw [List.cons_append, walk, walk, ← List.append_assoc, ih]
      rfl

theorem walk_singleton (n : Node) : walk [n] = n :: walk n.children := by
  rw [walk, List.append_nil]

theorem walk_cons (n : Node) (ns : List Node) : walk (n :: ns) = walk [n] ++ walk ns :=
  walk_append [n] ns

/-- A forest without children is walked as it is. -/
theorem walk_of_childless {ns : List Node} (h : ∀ n ∈ ns, n.children = []) : walk ns = ns := by
  induction ns with
  | nil => rw [walk]
  | cons n ns ih => rw [walk, h n (by simp), List.nil_append, ih fun m hm => h m (by simp [hm])]

/-- A node stands in a forest when it stands in one of its trees. -/
theorem mem_walk {m : Node} {ns : List Node} : m ∈ walk ns ↔ ∃ n ∈ ns, m ∈ walk [n] := by
  induction ns with
  | nil => simp [walk]
  | cons n ns ih =>
      rw [walk_cons, List.mem_append, ih]
      simp

/-- Every node of a forest is on the walk. -/
theorem mem_walk_of_mem {n : Node} {ns : List Node} (h : n ∈ ns) : n ∈ walk ns :=
  mem_walk.2 ⟨n, h, by simp [walk_singleton]⟩

/-- What stands below a child stands below its parent. -/
theorem mem_walk_of_mem_children {m n : Node} (h : m ∈ walk n.children) : m ∈ walk [n] := by
  rw [walk_singleton]
  exact List.mem_cons_of_mem n h

/-- What stands below a node of a forest stands in the forest. -/
theorem mem_walk_children {m n : Node} {ns : List Node} (hn : n ∈ walk ns)
    (hm : m ∈ walk n.children) : m ∈ walk ns := by
  induction ns using walk.induct with
  | case1 => simp [walk] at hn
  | case2 r ns ih =>
      rw [walk] at hn ⊢
      rcases List.mem_cons.1 hn with rfl | hn
      · rw [walk_append]
        exact List.mem_cons_of_mem _ (List.mem_append_left _ hm)
      · exact List.mem_cons_of_mem _ (ih hn)

/-- Every node of a forest has a property when every tree has it at its
root and in the rest. -/
theorem forall_mem_walk {P : Node → Prop} {ns : List Node} :
    (∀ m ∈ walk ns, P m) ↔ ∀ n ∈ ns, ∀ m ∈ walk [n], P m := by
  constructor
  · intro h n hn m hm
    exact h m (mem_walk.2 ⟨n, hn, hm⟩)
  · intro h m hm
    obtain ⟨n, hn, hm⟩ := mem_walk.1 hm
    exact h n hn m hm

/-- What is found from a node of another kind is found on the walk over its
children. -/
theorem findAll_branch {kind k : Kind} {start stop : Nat} {ns : List Node} (h : k ≠ kind) :
    (branch k start stop ns).findAll kind = (walk ns).filter (·.kind = kind) := by
  unfold findAll
  rw [walk_singleton]
  exact List.filter_cons_of_neg (by simp [branch, h])

-- ============================================================= faults

theorem faults_append (ns ms : List Node) : faults (ns ++ ms) = faults ns ++ faults ms := by
  induction ns using faults.induct with
  | case1 => rw [faults]; rfl
  | case2 n ns hn ih => rw [List.cons_append, faults, faults, if_pos hn, if_pos hn, ih]; rfl
  | case3 n ns hn hflawed ih =>
      rw [List.cons_append, faults, faults, if_neg hn, if_neg hn, if_pos hflawed, if_pos hflawed,
        ← List.append_assoc, ih]
  | case4 n ns hn hflawed ih =>
      rw [List.cons_append, faults, faults, if_neg hn, if_neg hn, if_neg hflawed, if_neg hflawed,
        ih]

/-- Nodes without a flag are not entered. -/
theorem faults_of_unflagged {ns : List Node} (h : ∀ n ∈ ns, n.isFault = false ∧ n.flawed = false) :
    faults ns = [] := by
  induction ns with
  | nil => rw [faults]
  | cons n ns ih =>
      obtain ⟨hfault, hflawed⟩ := h n (by simp)
      rw [faults, if_neg (by simp [hfault]), if_neg (by simp [hflawed])]
      exact ih fun m hm => h m (by simp [hm])

/-- The tokens that can be missed: the ends of a tag. -/
def tagEnds : List Text := [['>'], ['/', '>']]

/-- A node whose flag is raised exactly over malformed places, whose span
begins and ends inside a text, and which misses the end of a tag if it
misses a token. -/
structure Sound (limit : Nat) (n : Node) : Prop where
  flag : n.flawed = (n.isFault || n.children.any (·.flawed))
  start_le : n.start ≤ limit
  stop_le : n.stop ≤ limit
  token : ∀ token, n.kind = .absent token → token ∈ tagEnds

variable {limit : Nat}

/-- Every node of a forest is sound. -/
def AllSound (limit : Nat) (ns : List Node) : Prop := ∀ m ∈ walk ns, m.Sound limit

theorem allSound_append {ns ms : List Node} :
    AllSound limit (ns ++ ms) ↔ AllSound limit ns ∧ AllSound limit ms := by
  unfold AllSound
  rw [walk_append]
  exact List.forall_mem_append

theorem allSound_cons {n : Node} {ns : List Node} :
    AllSound limit (n :: ns) ↔ AllSound limit [n] ∧ AllSound limit ns :=
  @allSound_append limit [n] ns

/-- A forest is sound when each of its nodes is. -/
theorem allSound_iff {ns : List Node} : AllSound limit ns ↔ ∀ n ∈ ns, AllSound limit [n] :=
  forall_mem_walk

theorem AllSound.mono {ns : List Node} {wider : Nat} (h : AllSound limit ns)
    (hle : limit ≤ wider) : AllSound wider ns := by
  intro m hm
  obtain ⟨hflag, hstart, hstop, htoken⟩ := h m hm
  exact ⟨hflag, Nat.le_trans hstart hle, Nat.le_trans hstop hle, htoken⟩

/-- A node is sound with all below it when its children are and it is
sound itself. -/
theorem allSound_singleton {n : Node} :
    AllSound limit [n] ↔ n.Sound limit ∧ AllSound limit n.children := by
  unfold AllSound
  rw [walk_singleton]
  exact List.forall_mem_cons

/-- A place that is not malformed misses no token. -/
theorem token_of_not_isFault {n : Node} (h : n.isFault = false) :
    ∀ token, n.kind = .absent token → token ∈ tagEnds := by
  intro token hkind
  rw [isFault, hkind] at h
  cases h

/-- A leaf of a text is sound. -/
theorem allSound_leaf {kind : Kind} {start stop : Nat} (hkind : (leaf kind start stop).isFault = false)
    (hstart : start ≤ limit) (hstop : stop ≤ limit) : AllSound limit [leaf kind start stop] := by
  refine allSound_singleton.2 ⟨⟨?_, hstart, hstop, token_of_not_isFault hkind⟩, ?_⟩
  · rw [hkind]
    rfl
  · simp [AllSound, leaf, walk]

/-- A node for a malformed place is sound. -/
theorem allSound_broken {kind : Kind} {start stop : Nat} (hkind : kind = .fault)
    (hstart : start ≤ limit) (hstop : stop ≤ limit) : AllSound limit [broken kind start stop] := by
  subst hkind
  refine allSound_singleton.2 ⟨⟨rfl, hstart, hstop, nofun⟩, ?_⟩
  simp [AllSound, broken, walk]

/-- A node for a missing end of a tag is sound. -/
theorem allSound_absent {token : Text} {place : Nat} (htoken : token ∈ tagEnds)
    (hplace : place ≤ limit) : AllSound limit [broken (.absent token) place place] := by
  refine allSound_singleton.2 ⟨⟨rfl, hplace, hplace, ?_⟩, ?_⟩
  · intro token' hkind
    cases hkind
    exact htoken
  · simp [AllSound, broken, walk]

/-- A node over sound children is sound. -/
theorem allSound_branch {kind : Kind} {start stop : Nat} {ns : List Node}
    (hkind : (branch kind start stop ns).isFault = false) (hstart : start ≤ limit)
    (hstop : stop ≤ limit) (hns : AllSound limit ns) :
    AllSound limit [branch kind start stop ns] := by
  refine allSound_singleton.2 ⟨⟨?_, hstart, hstop, token_of_not_isFault hkind⟩, hns⟩
  rw [hkind]
  rfl

/-- A forest without raised flags has no malformed place. -/
theorem not_isFault_of_flawless {ns : List Node} (hns : AllSound limit ns)
    (h : ∀ n ∈ ns, n.flawed = false) : ∀ m ∈ walk ns, m.isFault = false := by
  induction ns using walk.induct with
  | case1 => simp [walk]
  | case2 n ns ih =>
      have hwalk : walk (n :: ns) = n :: walk (n.children ++ ns) := by rw [walk]
      have hflag : n.isFault = false ∧ n.children.any (·.flawed) = false := by
        have hn := (hns n (by rw [hwalk]; simp)).flag
        rw [h n (by simp)] at hn
        exact Bool.or_eq_false_iff.1 hn.symm
      rw [hwalk]
      intro m hm
      rcases List.mem_cons.1 hm with rfl | hm
      · exact hflag.1
      · refine ih ?_ ?_ m hm
        · exact fun m hm => hns m (by rw [hwalk]; simp [hm])
        · intro c hc
          rcases List.mem_append.1 hc with hc | hc
          · simpa using List.any_eq_false.1 hflag.2 c hc
          · exact h c (by simp [hc])

/-- A forest without malformed places has no raised flag. -/
theorem flawless_of_not_isFault {ns : List Node} (hns : AllSound limit ns)
    (h : ∀ m ∈ walk ns, m.isFault = false) : ∀ n ∈ ns, n.flawed = false := by
  induction ns using walk.induct with
  | case1 => simp
  | case2 n ns ih =>
      have hwalk : walk (n :: ns) = n :: walk (n.children ++ ns) := by rw [walk]
      have hrest : ∀ c ∈ n.children ++ ns, c.flawed = false :=
        ih (fun m hm => hns m (by rw [hwalk]; simp [hm])) fun m hm => h m (by rw [hwalk]; simp [hm])
      intro m hm
      rcases List.mem_cons.1 hm with rfl | hm
      · have hchildren : m.children.any (·.flawed) = false := by
          rw [List.any_eq_false]
          intro c hc
          simp [hrest c (by simp [hc])]
        rw [(hns m (by rw [hwalk]; simp)).flag, h m (by rw [hwalk]; simp), hchildren]
        rfl
      · exact hrest m (by simp [hm])

/-- A raised flag has a fault below it. -/
theorem exists_isFault_of_flawed {n : Node} (hn : AllSound limit [n]) (h : n.flawed = true) :
    ∃ m ∈ walk [n], m.isFault = true := by
  by_cases hnone : ∀ m ∈ walk [n], m.isFault = false
  · rw [flawless_of_not_isFault hn hnone n (by simp)] at h
    cases h
  · simpa using hnone

/-- A malformed tree of a forest is found. -/
theorem mem_faults {n : Node} {ns : List Node} (hn : n ∈ ns) (h : n.isFault = true) :
    n ∈ faults ns := by
  obtain ⟨before, after, rfl⟩ := List.append_of_mem hn
  rw [faults_append, faults, if_pos h]
  simp

/-- The search for malformed places misses none. -/
theorem not_isFault_of_faults {ns : List Node} (hns : AllSound limit ns) (h : faults ns = []) :
    ∀ m ∈ walk ns, m.isFault = false := by
  induction ns using faults.induct with
  | case1 => simp [walk]
  | case2 n ns hn ih =>
      rw [faults, if_pos hn] at h
      cases h
  | case3 n ns hn hflawed ih =>
      rw [faults, if_neg hn, if_pos hflawed] at h
      have hwalk : walk (n :: ns) = n :: walk (n.children ++ ns) := by rw [walk]
      rw [hwalk]
      intro m hm
      rcases List.mem_cons.1 hm with rfl | hm
      · simpa using hn
      · exact ih (fun m hm => hns m (by rw [hwalk]; simp [hm])) h m hm
  | case4 n ns hn hflawed ih =>
      rw [faults, if_neg hn, if_neg hflawed] at h
      rw [walk_cons] at *
      intro m hm
      have hparts := allSound_append.1 (show AllSound limit ([n] ++ ns) from hns)
      rcases List.mem_append.1 hm with hm | hm
      · exact not_isFault_of_flawless hparts.1 (by simpa using hflawed) m hm
      · exact ih hparts.2 h m hm

end KeyHarvest.Markup.Node
