/-
Templates side by side. The trees of two templates stand next to each
other in one document, the second further to the right. Then the nodes of
the document are those of the one and, further down, those of the other
(`content_beside`), provided that the first one ends where its last
element or comment does.

The check of the document is not that of its parts (`check_beside`). Each
part may have passed because nothing in it was flawed, and a flaw in the
second one has the elements of the first one looked at, too.
-/
import KeyHarvest.Proofs.Markup.Behind
import KeyHarvest.Proofs.Markup.Mask
import KeyHarvest.Proofs.Template.Shift
import Mathlib.Data.List.Find

namespace KeyHarvest.Template

open Markup (Kind)
open Markup.Node (walk shift faults)

namespace Source

-- ============================================================= checks

/-- The first element of a forest that was left open and must be closed. -/
def unclosed? (s : Source) (ns : List Markup.Node) : Option Markup.Node :=
  ((walk ns).filter (·.kind = .element)).find? s.isUnclosed

/-- What an element left open is refused with. -/
def refuseOpen (s : Source) (n : Markup.Node) : Error :=
  s.refuse n (.unclosed ((s.unclosedName? n).getD []))

/-- A document without stray end tags and malformed places is refused for
an element left open, or not at all. -/
theorem check_document {s : Source} {stop : Nat} {ns : List Markup.Node}
    (hstray : ∀ m ∈ walk ns, m.kind ≠ .strayEndTag) (hfaults : faults ns = []) :
    s.check (.branch .document 0 stop ns)
      = match if ns.any (·.flawed) then s.unclosed? ns else none with
        | some n => .error (s.refuseOpen n)
        | none => .ok () := by
  have hnone : (Markup.Node.branch .document 0 stop ns).findAll .strayEndTag = [] := by
    rw [Markup.Node.findAll_branch (by decide), List.filter_eq_nil_iff]
    intro m hm
    simpa using hstray m hm
  have hfound : faults [Markup.Node.branch .document 0 stop ns] = [] := by
    rw [faults, if_neg (by simp [Markup.Node.branch, Markup.Node.isFault])]
    split
    · rw [List.append_nil]
      exact hfaults
    · rw [faults]
  unfold check
  rw [hnone]
  show (if ns.any (·.flawed) = true then _ else _) = _
  by_cases hflawed : ns.any (·.flawed) = true
  · simp only [if_pos hflawed, hfound, Markup.Node.findAll_branch (show Kind.document ≠ .element by
      decide)]
    rfl
  · simp only [if_neg hflawed]

/-- What is known of a document that passes its check. -/
theorem check_document_eq_ok {s : Source} {stop : Nat} {ns : List Markup.Node}
    (h : s.check (.branch .document 0 stop ns) = .ok ()) :
    (∀ m ∈ walk ns, m.kind ≠ .strayEndTag)
      ∧ (ns.any (·.flawed) = true → faults ns = [] ∧ s.unclosed? ns = none) := by
  unfold check at h
  split at h
  · cases h
  · rename_i hnone
    refine ⟨?_, ?_⟩
    · intro m hm hkind
      rw [Markup.Node.findAll_branch (by decide), List.filter_eq_nil_iff] at hnone
      exact hnone m hm (by simpa using hkind)
    · intro hflawed
      rw [if_pos (show (Markup.Node.branch .document 0 stop ns).flawed = true from hflawed)] at h
      split at h
      · cases h
      · rename_i hfound
        split at h
        · cases h
        · rename_i hopen
          rw [Markup.Node.findAll_branch (by decide)] at hopen
          refine ⟨?_, hopen⟩
          rw [faults, if_neg (by simp [Markup.Node.branch, Markup.Node.isFault]),
            if_pos (show (Markup.Node.branch .document 0 stop ns).flawed = true from hflawed),
            List.append_nil] at hfound
          exact hfound

theorem unclosed?_append (s : Source) (ns ms : List Markup.Node) :
    s.unclosed? (ns ++ ms) = (s.unclosed? ns).or (s.unclosed? ms) := by
  unfold unclosed?
  rw [Markup.Node.walk_append, List.filter_append, List.find?_append]

/-- The elements of a text that are left open are so behind another text. -/
theorem unclosed?_behind (pre t path : Text) (ns : List Markup.Node) :
    unclosed? ⟨pre ++ t, path⟩ (ns.map (shift pre.length))
      = (unclosed? ⟨t, path⟩ ns).map (shift pre.length) := by
  have hkind : (fun n : Markup.Node => decide (n.kind = .element)) ∘ shift pre.length
      = fun n => decide (n.kind = .element) := by
    funext n
    simp
  have hopen : isUnclosed ⟨pre ++ t, path⟩ ∘ shift pre.length = isUnclosed ⟨t, path⟩ := by
    funext n
    exact isUnclosed_shift fun m _ => ⟨carries_behind .., carries_behind ..⟩
  unfold unclosed?
  rw [Markup.Node.walk_map_shift, List.filter_map, hkind, List.find?_map, hopen]

/-- The elements of a text that are left open are so before another text,
and are refused in the same way. -/
theorem unclosed?_before {t path : Text} (post : Text) {ns : List Markup.Node}
    (hlimit : ∀ m ∈ walk ns, m.start ≤ t.length ∧ m.stop ≤ t.length) :
    unclosed? ⟨t ++ post, path⟩ ns = unclosed? ⟨t, path⟩ ns
      ∧ ∀ n, unclosed? ⟨t, path⟩ ns = some n →
        refuseOpen ⟨t ++ post, path⟩ n = refuseOpen ⟨t, path⟩ n := by
  have hcarries : ∀ m ∈ walk ns, CarriesAll ⟨t, path⟩ ⟨t ++ post, path⟩ 0 0 m.children := by
    intro m hm c hc
    have hbounds := hlimit c (Markup.Node.mem_walk_children hm hc)
    exact ⟨carries_before hbounds.1, carries_before hbounds.2⟩
  have hname : ∀ m ∈ walk ns, unclosedName? ⟨t ++ post, path⟩ m = unclosedName? ⟨t, path⟩ m := by
    intro m hm
    have hshift := unclosedName?_shift (hcarries m hm)
    rwa [Markup.Node.shift_zero] at hshift
  refine ⟨?_, ?_⟩
  · unfold unclosed?
    apply List.find?_congr
    intro m hm
    unfold isUnclosed
    rw [hname m (List.mem_filter.1 hm).1]
  · intro n hn
    have hmem : n ∈ walk ns := (List.mem_filter.1 (List.mem_of_find?_eq_some hn)).1
    unfold refuseOpen refuse
    dsimp only
    rw [hname n hmem, Place.ofOffset_before (hlimit n hmem).1]

/-- Text adds nothing to what is checked. -/
structure Neutral (ns : List Markup.Node) : Prop where
  stray : ∀ m ∈ walk ns, m.kind ≠ .strayEndTag
  flawless : ∀ n ∈ ns, n.isFault = false ∧ n.flawed = false

theorem Neutral.any_flawed {ns : List Markup.Node} (h : Neutral ns) :
    ns.any (·.flawed) = false := by
  rw [List.any_eq_false]
  intro n hn
  simp [(h.flawless n hn).2]

theorem walk_texts {texts : List Markup.Node} (h : ∀ n ∈ texts, n.IsTextLeaf) :
    walk texts = texts := by
  apply Markup.Node.walk_of_childless
  intro n hn
  obtain ⟨start, stop, rfl⟩ := h n hn
  rfl

theorem neutral_texts {texts : List Markup.Node} (h : ∀ n ∈ texts, n.IsTextLeaf) :
    Neutral texts := by
  refine ⟨?_, ?_⟩
  · rw [walk_texts h]
    intro n hn
    obtain ⟨start, stop, rfl⟩ := h n hn
    exact nofun
  · intro n hn
    obtain ⟨start, stop, rfl⟩ := h n hn
    exact ⟨rfl, rfl⟩

theorem unclosed?_texts {s : Source} {texts : List Markup.Node} (h : ∀ n ∈ texts, n.IsTextLeaf) :
    s.unclosed? texts = none := by
  have hnone : texts.filter (·.kind = .element) = [] := by
    rw [List.filter_eq_nil_iff]
    intro n hn
    obtain ⟨start, stop, rfl⟩ := h n hn
    simp [Markup.Node.leaf]
  unfold unclosed?
  rw [walk_texts h, hnone]
  rfl

/-- Two documents side by side, of which the first has no flaws. The check
goes over the elements of the first one when the second one is flawed. -/
theorem check_beside {a b path : Text} {before texts texts' ns : List Markup.Node}
    {stop stop' : Nat} (hbefore : Neutral before)
    (htexts : ∀ n ∈ texts ++ texts', n.IsTextLeaf) (hfaults : faults (texts ++ ns) = [])
    (h : check ⟨b, path⟩ (.branch .document 0 stop (texts ++ ns)) = .ok ()) :
    check ⟨a ++ b, path⟩
        (.branch .document 0 stop' (before ++ (texts' ++ ns.map (shift a.length))))
      = match if (texts ++ ns).any (·.flawed) then unclosed? ⟨a ++ b, path⟩ before else none with
        | some n => .error (refuseOpen ⟨a ++ b, path⟩ n)
        | none => .ok () := by
  obtain ⟨hleft, hright⟩ := List.forall_mem_append.1 htexts
  obtain ⟨hstray, hopen⟩ := check_document_eq_ok h
  rw [Markup.Node.walk_append] at hstray
  rw [Markup.Node.faults_append] at hfaults
  rw [List.any_append, (neutral_texts hleft).any_flawed, Bool.false_or] at hopen ⊢
  rw [check_document]
  · have hany : (before ++ (texts' ++ ns.map (shift a.length))).any (·.flawed)
        -- only what is behind can have a raised flag, as all in front is neutral
        = ns.any (·.flawed) := by
      rw [List.any_append, List.any_append, hbefore.any_flawed, (neutral_texts hright).any_flawed,
        List.any_map, Bool.false_or, Bool.false_or]
      congr 1
      funext n
      exact Markup.Node.shift_flawed n
    rw [hany]
    by_cases hflawed : ns.any (·.flawed) = true
    · -- the second template alone was accepted, so it leaves no tag open
      have hnone : unclosed? ⟨b, path⟩ ns = none := by
        have hboth := (hopen hflawed).2
        rwa [unclosed?_append, unclosed?_texts hleft, Option.none_or] at hboth
      rw [if_pos hflawed, if_pos hflawed, unclosed?_append, unclosed?_append,
        unclosed?_texts hright, unclosed?_behind, hnone, Option.map_none, Option.or_none,
        Option.or_none]
    · rw [if_neg hflawed, if_neg hflawed]
  · rw [Markup.Node.walk_append, Markup.Node.walk_append, Markup.Node.walk_map_shift]
    intro m hm
    rcases List.mem_append.1 hm with hm | hm
    · exact hbefore.stray m hm
    · rcases List.mem_append.1 hm with hm | hm
      · exact (neutral_texts hright).stray m hm
      · obtain ⟨n, hn, rfl⟩ := List.mem_map.1 hm
        rw [Markup.Node.shift_kind]
        exact hstray n (List.mem_append_right _ hn)
  · rw [Markup.Node.faults_append, Markup.Node.faults_append, Markup.Node.faults_map_shift,
      Markup.Node.faults_of_unflagged hbefore.flawless,
      Markup.Node.faults_of_unflagged (neutral_texts hright).flawless,
      (List.append_eq_nil_iff.1 hfaults).2]
    rfl

-- ============================================================ content

/-- Nodes that interrupt the text around them. -/
def interrupts (n : Markup.Node) : Bool := n.kind = .element || isSkipped n.kind

theorem content_of_text {s : Source} {cursor stop : Nat} {texts ns : List Markup.Node}
    (h : ∀ n ∈ texts, n.IsTextLeaf) :
    s.content cursor stop (texts ++ ns) = s.content cursor stop ns := by
  induction texts with
  | nil => rfl
  | cons n texts ih =>
      obtain ⟨start, stop, rfl⟩ := h n (by simp)
      rw [List.cons_append, content]
      exact ih fun m hm => h m (by simp [hm])

theorem content_nil (s : Source) (offset : Nat) : s.content offset offset [] = .ok [] := by
  have hslice : Text.slice s.text offset offset = [] := by
    unfold Text.slice
    rw [Nat.sub_self, List.take_zero]
  rw [content, hslice]
  rfl

/-- More content behind the first node is more content behind it with its
own. Where the rest begins depends on whether the node interrupts text. -/
theorem content_cons {s : Source} {cursor mid stop : Nat} {n : Markup.Node}
    {ns ms : List Markup.Node} {xs ys : List Node}
    (hrest : ∀ start zs, (interrupts n = true → start = n.stop) →
      s.content start mid ns = .ok zs → s.content start stop ms = .ok (zs ++ ys))
    (h : s.content cursor mid (n :: ns) = .ok xs) :
    s.content cursor stop (n :: ms) = .ok (xs ++ ys) := by
  rw [content] at h ⊢
  split at h
  · rename_i hkind
    obtain ⟨text, htext, h⟩ := bind_eq_ok.1 h
    obtain ⟨e, he, h⟩ := bind_eq_ok.1 h
    obtain ⟨zs, hzs, h⟩ := bind_eq_ok.1 h
    obtain rfl := Except.ok.inj h
    rw [if_pos hkind]
    refine bind_eq_ok.2 ⟨text, htext, bind_eq_ok.2 ⟨e, he, bind_eq_ok.2 ⟨zs ++ ys, ?_, ?_⟩⟩⟩
    · exact hrest n.stop zs (fun _ => rfl) hzs
    · rw [List.append_assoc]
      rfl
  · rename_i hkind
    rw [if_neg hkind]
    split at h
    · rename_i hskipped
      obtain ⟨text, htext, h⟩ := bind_eq_ok.1 h
      obtain ⟨zs, hzs, h⟩ := bind_eq_ok.1 h
      obtain rfl := Except.ok.inj h
      rw [if_pos hskipped]
      refine bind_eq_ok.2 ⟨text, htext, bind_eq_ok.2 ⟨zs ++ ys, ?_, ?_⟩⟩
      · exact hrest n.stop zs (fun _ => rfl) hzs
      · rw [List.append_assoc]
        rfl
    · rename_i hskipped
      rw [if_neg hskipped]
      refine hrest cursor xs ?_ h
      intro hn
      simp [interrupts, hkind, hskipped] at hn

/-- Content up to the end of a node that interrupts text, and what follows
the node. -/
theorem content_append {s : Source} {cursor stop : Nat} {before after : List Markup.Node}
    {e : Markup.Node} {xs ys : List Node} (he : interrupts e = true)
    (hbefore : s.content cursor e.stop (before ++ [e]) = .ok xs)
    (hafter : s.content e.stop stop after = .ok ys) :
    s.content cursor stop (before ++ e :: after) = .ok (xs ++ ys) := by
  induction before generalizing cursor xs with
  | nil =>
      refine content_cons ?_ hbefore
      intro start zs hstart hzs
      rw [hstart he, content_nil] at hzs
      rw [hstart he, ← Except.ok.inj hzs]
      exact hafter
  | cons n before ih => exact content_cons (fun _ _ _ hzs => ih hzs) hbefore

/-- Two documents side by side have the nodes of the first, and those of
the second further down. -/
theorem content_beside {a b path : Text} {before texts texts' ns : List Markup.Node}
    {e : Markup.Node} {xs ys : List Node} (hlast : before.getLast? = some e)
    (he : interrupts e = true) (hstop : e.stop = a.length)
    (hlimit : ∀ m ∈ walk before, m.start ≤ a.length ∧ m.stop ≤ a.length)
    (htexts : ∀ n ∈ texts ++ texts', n.IsTextLeaf)
    (ha : content ⟨a, path⟩ 0 a.length before = .ok xs)
    (hb : content ⟨b, path⟩ 0 b.length (texts ++ ns) = .ok ys) :
    content ⟨a ++ b, path⟩ 0 (a ++ b).length (before ++ (texts' ++ ns.map (shift a.length)))
      = .ok (xs ++ ys.map (Node.down (lineFeeds a))) := by
  obtain ⟨hleft, hright⟩ := List.forall_mem_append.1 htexts
  obtain ⟨init, rfl⟩ := List.getLast?_eq_some_iff.1 hlast
  have hfirst : content ⟨a ++ b, path⟩ 0 e.stop (init ++ [e]) = .ok xs := by
    have hall : CarriesAll ⟨a, path⟩ ⟨a ++ b, path⟩ 0 0 (init ++ [e]) := fun m hm =>
      ⟨carries_before (hlimit m hm).1, carries_before (hlimit m hm).2⟩
    have hshift := content_shift (by rfl) 0 a.length (carries_before (Nat.le_refl _)) _ hall ha
    rwa [Node.map_down_zero, show shift 0 = id from funext Markup.Node.shift_zero, List.map_id,
      Nat.add_zero, Nat.add_zero, ← hstop] at hshift
  have hsecond : content ⟨a ++ b, path⟩ e.stop (a ++ b).length
      (texts' ++ ns.map (shift a.length)) = .ok (ys.map (Node.down (lineFeeds a))) := by
    have hall : CarriesAll ⟨b, path⟩ ⟨a ++ b, path⟩ a.length (lineFeeds a) ns := fun m _ =>
      ⟨carries_behind .., carries_behind ..⟩
    rw [content_of_text hleft] at hb
    have hshift := content_shift (by rfl) 0 b.length (carries_behind ..) ns hall hb
    rw [content_of_text hright, hstop, List.length_append, Nat.add_comm]
    rwa [Nat.zero_add] at hshift
  rw [List.append_assoc]
  exact content_append he hfirst hsecond

end Source

-- ========================================================== templates

theorem parse_eq_ok {path t : Text} {nodes : List Node} :
    parse path t = .ok nodes
      ↔ Source.check ⟨t, path⟩ (Markup.parse (mask t)) = .ok ()
        ∧ Source.content ⟨t, path⟩ 0 t.length (Markup.parse (mask t)).children = .ok nodes := by
  have hstop : (Markup.parse (mask t)).stop = t.length := length_mask t
  unfold parse
  rw [bind_eq_ok, hstop]
  constructor
  · intro h
    obtain ⟨_, hcheck, hcontent⟩ := h
    exact ⟨hcheck, hcontent⟩
  · intro h
    exact ⟨(), h.1, h.2⟩

/-- The markup of a template that is accepted has no malformed place. -/
theorem faults_of_check {s : Source} {t : Text} (h : s.check (Markup.parse t) = .ok ()) :
    faults (Markup.parse t).children = [] := by
  by_cases hflawed : (Markup.parse t).flawed = true
  · exact ((Source.check_document_eq_ok h).2 hflawed).1
  · exact Markup.faults_of_flawless (by simpa using hflawed)

/-- A template behind another text whose tree is `before`. -/
theorem parse_beside {path a b : Text} {before texts texts' ns : List Markup.Node}
    {e : Markup.Node} {xs ys : List Node} (hb : parse path b = .ok ys)
    (hlast : before.getLast? = some e) (he : Source.interrupts e = true) (hstop : e.stop = a.length)
    (hneutral : Source.Neutral before)
    (hlimit : ∀ m ∈ walk before, m.start ≤ a.length ∧ m.stop ≤ a.length)
    (htexts : ∀ n ∈ texts ++ texts', n.IsTextLeaf)
    (hall : (Markup.parse (mask (a ++ b))).children
      = before ++ (texts' ++ ns.map (shift a.length)))
    (hown : (Markup.parse (mask b)).children = texts ++ ns)
    (ha : Source.content ⟨a, path⟩ 0 a.length before = .ok xs) :
    parse path (a ++ b)
      = match if (Markup.parse (mask b)).flawed then Source.unclosed? ⟨a, path⟩ before else none with
        | some n => .error (Source.refuseOpen ⟨a, path⟩ n)
        | none => .ok (xs ++ ys.map (Node.down (lineFeeds a))) := by
  obtain ⟨hcheck, hcontent⟩ := parse_eq_ok.1 hb
  have hfaults := faults_of_check hcheck
  have hroot : Markup.parse (mask b) = .branch .document 0 (mask b).length (texts ++ ns) := by
    rw [← hown]
    rfl
  rw [hown] at hfaults hcontent
  rw [hroot] at hcheck
  have hflawed : (Markup.parse (mask b)).flawed = (texts ++ ns).any (·.flawed) := by
    rw [hroot]
    rfl
  obtain ⟨hopen, hrefuse⟩ := Source.unclosed?_before b hlimit
  have hchecked : Source.check ⟨a ++ b, path⟩ (.branch .document 0 (mask (a ++ b)).length
      (before ++ (texts' ++ ns.map (shift a.length)))) = _ :=
    Source.check_beside hneutral htexts hfaults hcheck
  rw [← hall, hopen, ← hflawed] at hchecked
  have hnodes := Source.content_beside hlast he hstop hlimit htexts ha hcontent
  rw [← hall, ← length_mask] at hnodes
  show (Source.check ⟨a ++ b, path⟩ (Markup.parse (mask (a ++ b))) >>= fun _ =>
    Source.content ⟨a ++ b, path⟩ 0 (mask (a ++ b)).length (Markup.parse (mask (a ++ b))).children) = _
  rw [hnodes, show Source.check ⟨a ++ b, path⟩ (Markup.parse (mask (a ++ b))) = _ from hchecked]
  cases hfound : (if (Markup.parse (mask b)).flawed then Source.unclosed? ⟨a, path⟩ before else none) with
  | none => rfl
  | some n =>
      have hsome : Source.unclosed? ⟨a, path⟩ before = some n := by
        split at hfound
        · exact hfound
        · cases hfound
      exact congrArg _ (hrefuse n hsome)

end KeyHarvest.Template
