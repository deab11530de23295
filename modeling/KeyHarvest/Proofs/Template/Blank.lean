/-
Blank texts. A run is never blank as it is written, but what is stored of
it can be: the test is made before its references are replaced and its
white space is collapsed. A code point fades when it is blank, or when it
is collapsed with a neighbour into one space; two code points that are no
blanks can be, the byte order mark and the vowel separator of Mongolian.
The stored text is blank exactly when everything fades that the parts of
the run stand for (`isBlank_collapse`, `Source.Vanishes`).

A run vanishes only if there is a reference in it that stands for nothing
but such code points, or one of the two marks is. The key of a marked
element is empty exactly where a run directly inside it vanishes.
-/
import KeyHarvest.Proofs.Keys.Marked
import KeyHarvest.Proofs.Markup.Reference
import KeyHarvest.Proofs.Template.Runs

namespace KeyHarvest.Template

namespace Source

-- ============================================================= fading

/-- Whether every code point of a text is blank or is collapsed with a
neighbour, when the code point in front of the text is collapsible or
not. -/
def fades (behind : Bool) : Text → Bool
  | [] => true
  | c :: cs => (c.isBlank || isCollapsible c && (behind || cs.head?.any isCollapsible))
      && fades (isCollapsible c) cs

/-- Behind one collapsible code point all that follow fade. -/
theorem fades_append {u v : Text} (hu : ∀ c ∈ u, isCollapsible c = true) :
    fades true (u ++ v) = fades true v := by
  induction u with
  | nil => rfl
  | cons c u ih =>
      rw [List.forall_mem_cons] at hu
      rw [List.cons_append, fades, hu.1, ih hu.2]
      simp

/-- What stands in front of a text matters to a collapsible code point
only. -/
theorem fades_of_head {v : Text} (h : v.head?.any isCollapsible = false) (behind : Bool) :
    fades behind v = fades false v := by
  cases v with
  | nil => rfl
  | cons c v =>
      have hc : isCollapsible c = false := h
      rw [fades, fades, hc, Bool.false_and, Bool.false_and]

/-- A collapsible code point comes first exactly when there is a run of
them. -/
theorem head?_collapsible_iff {t : Text} :
    t.head?.any isCollapsible = true ↔ (t.takeWhile isCollapsible).length ≠ 0 := by
  cases t with
  | nil => simp
  | cons c t => by_cases hc : isCollapsible c = true <;> simp [hc]

theorem head?_dropWhile_collapsible (t : Text) :
    ((t.dropWhile isCollapsible).head?.any isCollapsible) = false := by
  cases h : (t.dropWhile isCollapsible).head? with
  | none => rfl
  | some c => exact Bool.eq_false_iff.2 (by simpa [h] using List.head?_dropWhile_not isCollapsible t)

/-- A collapsed text is blank exactly when all of it fades. -/
theorem isBlank_collapse (t : Text) : Text.isBlank (collapse t) = fades false t := by
  have hspace : (CodePoint.ofChar ' ').isBlank = true := by decide
  fun_induction collapse t with
  | case1 => rfl
  | case2 c cs run hrun ih =>
      -- the run behind `c` fades, and what follows it does not depend on the run
      have hdrop : cs.drop run = cs.dropWhile isCollapsible := by
        conv_lhs => rw [← List.takeWhile_append_dropWhile (p := isCollapsible) (l := cs)]
        exact List.drop_left
      have hhead : cs.head?.any isCollapsible = true := head?_collapsible_iff.2 hrun.2
      have hbehind : fades true cs = fades false (cs.dropWhile isCollapsible) := by
        conv_lhs => rw [← List.takeWhile_append_dropWhile (p := isCollapsible) (l := cs)]
        rw [fades_append fun d hd => List.mem_takeWhile_imp hd]
        exact fades_of_head (head?_dropWhile_collapsible cs) true
      rw [fades, hrun.1, hhead, hbehind, ← hdrop, ← ih]
      simp [Text.isBlank, hspace]
  | case3 c cs run hrun ih =>
      have hhead : isCollapsible c = true → cs.head?.any isCollapsible = false := fun hc =>
        Bool.eq_false_iff.2 fun hd => hrun ⟨hc, head?_collapsible_iff.1 hd⟩
      have hrest : fades (isCollapsible c) cs = fades false cs := by
        cases hc : isCollapsible c with
        | false => rfl
        | true => exact fades_of_head (hhead hc) true
      have hlone : (isCollapsible c && (false || cs.head?.any isCollapsible)) = false := by
        cases hc : isCollapsible c with
        | false => rfl
        | true => exact hhead hc
      rw [fades, hrest, hlone, Bool.or_false, ← ih]
      rfl

/-- What fades is blank or collapsible. -/
theorem of_fades {behind : Bool} {t : Text} (h : fades behind t = true) :
    ∀ c ∈ t, c.isBlank = true ∨ isCollapsible c = true := by
  induction t generalizing behind with
  | nil => nofun
  | cons c t ih =>
      rw [fades, Bool.and_eq_true, Bool.or_eq_true, Bool.and_eq_true] at h
      rw [List.forall_mem_cons]
      exact ⟨h.1.imp_right And.left, ih h.2⟩

-- ============================================================== parts

/-- All that the parts of a text stand for fades. -/
def Vanishes (raw : Text) : Prop :=
  ∃ ps, Charref.parts raw = .ok ps ∧ fades false (ps.flatMap Charref.Part.meaning) = true

/-- The text node of a run is blank exactly when the run vanishes. -/
theorem isBlank_iff_vanishes {s : Source} {raw value : Text} (h : s.RunBecomes raw (.text value)) :
    Text.isBlank value = true ↔ Vanishes raw := by
  obtain ⟨-, decoded, hdecoded, hreads⟩ := runBecomes_iff.1 h
  cases hreads
  obtain ⟨ps, hps, -, hmeaning⟩ := Charref.exists_parts_of_decode hdecoded
  rw [isBlank_collapse, ← hmeaning]
  constructor
  · intro hfades
    exact ⟨ps, hps, hfades⟩
  · intro hvanishes
    obtain ⟨ps', hps', hfades⟩ := hvanishes
    rw [hps] at hps'
    cases hps'
    exact hfades

/-- A run that vanishes holds a reference that stands for nothing but what
can fade, or a mark that is collapsible and no blank. -/
theorem exists_of_vanishes {raw : Text} (hraw : Text.isBlank raw = false) {ps : List Charref.Part}
    (hps : Charref.parts raw = .ok ps)
    (h : fades false (ps.flatMap Charref.Part.meaning) = true) :
    (∃ written meaning, .reference written meaning ∈ ps
        ∧ ∀ c ∈ meaning, c.isBlank = true ∨ isCollapsible c = true)
      ∨ ∃ c ∈ raw, isCollapsible c = true ∧ c.isBlank = false := by
  obtain ⟨c, hc, hblank⟩ : ∃ c ∈ raw, c.isBlank = false := by
    simpa [Text.isBlank] using hraw
  have hwritten := Charref.flatMap_written_of_parts hps
  rw [← hwritten] at hc
  obtain ⟨p, hp, hcp⟩ := List.mem_flatMap.1 hc
  have hmeaning : ∀ d ∈ p.meaning, d.isBlank = true ∨ isCollapsible d = true :=
    fun d hd => of_fades h d (List.mem_flatMap.2 ⟨p, hp, hd⟩)
  cases p with
  | reference written meaning => exact .inl ⟨written, meaning, hp, hmeaning⟩
  | plain d =>
      obtain rfl : c = d := List.mem_singleton.1 hcp
      have hcollapsible : isCollapsible c = true :=
        (hmeaning c (List.mem_singleton.2 rfl)).resolve_left (by rw [hblank]; exact Bool.false_ne_true)
      rw [hwritten] at hc
      exact .inr ⟨c, hc, hcollapsible, hblank⟩

end Source

-- =============================================================== keys

theorem trim_eq_nil_iff {t : Text} : Text.trim t = [] ↔ Text.isBlank t = true := by
  unfold Text.trim Text.trimWhile Text.isBlank
  rw [List.reverse_eq_nil_iff, List.dropWhile_eq_nil_iff, List.all_eq_true]
  simp only [List.mem_reverse]
  constructor
  · intro h c hc
    rcases hdrop : t.dropWhile CodePoint.isBlank with _ | ⟨d, ds⟩
    · exact List.dropWhile_eq_nil_iff.1 hdrop c hc
    · have hd := List.head?_dropWhile_not CodePoint.isBlank t
      rw [hdrop] at hd h
      simp [h d List.mem_cons_self] at hd
  · intro h c hc
    exact h c ((List.dropWhile_suffix _).mem hc)

theorem mem_directTexts {children : List Node} {value : Text} :
    value ∈ MarkedKeys.directTexts children ↔ Node.text value ∈ children := by
  unfold MarkedKeys.directTexts
  rw [List.mem_filterMap]
  constructor
  · intro h
    obtain ⟨n, hn, h⟩ := h
    split at h
    · cases h
      exact hn
    · cases h
  · intro h
    exact ⟨_, h, rfl⟩

/-- An element that gives the texts inside it gives the empty key exactly
when one of them is blank. -/
theorem nil_mem_iff_of_gives {m : MarkedKeys} {e : Node} {ks : List Text}
    (h : MarkedKeys.Gives m e .text ks) :
    [] ∈ ks ↔ ∃ value, Node.text value ∈ e.children ∧ Text.isBlank value = true := by
  cases h
  rw [List.mem_map]
  constructor
  · intro h
    obtain ⟨value, hvalue, htrim⟩ := h
    exact ⟨value, mem_directTexts.1 hvalue, trim_eq_nil_iff.1 htrim⟩
  · intro h
    obtain ⟨value, hvalue, hblank⟩ := h
    exact ⟨value, mem_directTexts.2 hvalue, trim_eq_nil_iff.2 hblank⟩

/-- Where the blank text nodes of a template come from. Its text nodes are
its runs, one by one; a plain one is blank exactly when its run vanishes,
and it takes a reference or a mark for that. A marked element whose keys
are its texts gives the empty key exactly when a run directly inside it
vanishes. -/
theorem blank_iff_vanishes {path text : Text} {nodes : List Node}
    (h : parse path text = .ok nodes) :
    List.Forall₂ (Source.RunBecomes ⟨text, path⟩) (Source.runs ⟨text, path⟩) (textNodes nodes)
    ∧ (∀ raw value, Source.RunBecomes ⟨text, path⟩ raw (.text value) →
      (Text.isBlank value = true ↔ Source.Vanishes raw))
    ∧ (∀ raw ∈ Source.runs ⟨text, path⟩, ∀ ps, Charref.parts raw = .ok ps →
      Source.fades false (ps.flatMap Charref.Part.meaning) = true →
      (∃ written meaning, .reference written meaning ∈ ps
        ∧ ∀ c ∈ meaning, c.isBlank = true ∨ Source.isCollapsible c = true)
      ∨ ∃ c ∈ raw, Source.isCollapsible c = true ∧ c.isBlank = false)
    ∧ ∀ (m : MarkedKeys) a e ks, at? nodes a = some e → MarkedKeys.Gives m e .text ks →
      ([] ∈ ks ↔ ∃ raw ∈ Source.runs ⟨text, path⟩, Source.Vanishes raw
        ∧ ∃ value, Node.text value ∈ e.children
          ∧ Source.RunBecomes ⟨text, path⟩ raw (.text value)) := by
  refine ⟨forall₂_runs h, fun raw value => Source.isBlank_iff_vanishes, ?_, ?_⟩
  · intro raw hraw ps hps hfades
    exact Source.exists_of_vanishes (Source.isBlank_of_mem_runs hraw) hps hfades
  · intro m a e ks he hgives
    rw [nil_mem_iff_of_gives hgives]
    constructor
    · intro hblank
      obtain ⟨value, hvalue, hblank⟩ := hblank
      have hnode : Node.text value ∈ textNodes nodes :=
        mem_textNodes.2 ⟨rfl, exists_at?_child he hvalue⟩
      obtain ⟨raw, hraw, hbecomes⟩ := exists_run h hnode
      exact ⟨raw, hraw, (Source.isBlank_iff_vanishes hbecomes).1 hblank, value, hvalue, hbecomes⟩
    · intro hruns
      obtain ⟨raw, -, hvanishes, value, hvalue, hbecomes⟩ := hruns
      exact ⟨value, hvalue, (Source.isBlank_iff_vanishes hbecomes).2 hvanishes⟩

/-- A space that is written as a reference is a run, and a blank text
node. -/
theorem blank_iff_vanishes_reference :
    let text : Text := Text.ofString "<t>&#32;</t>"
    let raw : Text := Text.ofString "&#32;"
    Source.Vanishes raw ∧ ∃ nodes, parse [] text = .ok nodes
      ∧ ∃ value, textNodes nodes = [.text value] ∧ Text.isBlank value = true := by
  intro text raw
  have hvanishes : Source.Vanishes raw :=
    ⟨[.reference raw (Text.ofString " ")], by decide +kernel, by decide⟩
  have hruns : Source.runs ⟨text, []⟩ = [raw] := by decide +kernel
  have hplain : (Source.textNode? ⟨text, []⟩ raw).toOption.map (·.bind MarkedKeys.plainText?)
      = some (some []) := by decide +kernel
  have haccepted : (parse [] text).toOption.isSome = true := by decide +kernel
  cases hparse : parse [] text with
  | error e =>
      rw [hparse] at haccepted
      cases haccepted
  | ok nodes =>
      obtain ⟨hall, hblank, -⟩ := blank_iff_vanishes hparse
      rw [hruns] at hall
      obtain ⟨n, ns, hn, hns, hnodes⟩ := List.forall₂_cons_left_iff.1 hall
      rw [List.forall₂_nil_left_iff.1 hns] at hnodes
      rw [show Source.textNode? ⟨text, []⟩ raw = .ok (some n) from hn] at hplain
      cases n with
      | text value => exact ⟨hvanishes, nodes, rfl, value, hnodes, (hblank raw value hn).2 hvanishes⟩
      | _ => cases hplain

end KeyHarvest.Template
