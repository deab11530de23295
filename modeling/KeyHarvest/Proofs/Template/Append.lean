/-
A template behind another one. When a template ends with the end tag of an
element outside of all others, nothing is open where the next one begins,
and the nodes of both follow one another. But elements that the end tag of
another element has closed are looked at again when the second template
leaves an element open at its end: then the first of them that must have
an end tag is reported (`parse_behind_closed`).
-/
import KeyHarvest.Proofs.Markup.Mask
import KeyHarvest.Proofs.Template.Beside
import Mathlib.Data.List.Infix

namespace KeyHarvest.Template

open Markup (Kind)
open Markup.Node (walk faults)

/-- A template without interpolations and blocks. -/
structure Uncoded (t : Text) : Prop where
  code : Text.holds ['{', '{'] t = false
  block : CodePoint.ofChar '@' ∉ t

/-- A template that ends with the end tag of an element outside of all
others. -/
structure Closed (t : Text) : Prop where
  tag : ∃ e ∈ (Markup.parse t).children.getLast?, e.stop = t.length
    ∧ (e.kind = .element ∨ e.kind = .script ∨ e.kind = .style)
    ∧ ∃ z ∈ e.children.getLast?, z.kind = .endTag
  bracketed : Markup.Bracketed t

/-- No comment that begins in a text ends in the text behind it. -/
def Apart (t rest : Text) : Prop :=
  ∀ u ∈ t.tails, Markup.commentLength? (u ++ rest) = Markup.commentLength? u

instance (t rest : Text) : Decidable (Apart t rest) :=
  inferInstanceAs (Decidable (∀ u ∈ t.tails, _))

theorem Uncoded.settled {t : Text} (h : Uncoded t) : Settled t := by
  refine ⟨?_, ?_⟩
  · rw [Interpolated.cut_of_unopened h.code]
    exact h.code
  · rw [Mask.behindOpenings_of_not_mem h.block]
    nofun

/-- A template behind one that ends with the end tag of an element outside
of all others. When the second one leaves an element open at its end, the
first element of the first one without the end tag it must have is
refused, although the end tag of another element has closed it. Otherwise
the nodes of both follow one another. -/
theorem parse_behind_closed {path a b : Text} {xs ys : List Node} (ha : parse path a = .ok xs)
    (hb : parse path b = .ok ys) (huncoded : Uncoded a) (huncoded' : Uncoded b) (hclosed : Closed a)
    (hapart : Apart a b) :
    parse path (a ++ b)
      = match if (Markup.parse b).flawed then Source.unclosed? ⟨a, path⟩ (Markup.parse a).children
          else none with
        | some n => .error (Source.refuseOpen ⟨a, path⟩ n)
        | none => .ok (xs ++ ys.map (Node.down (lineFeeds a))) := by
  obtain ⟨e, he, hstop, hkind, z, hz, hend⟩ := hclosed.tag
  have hsealed : Markup.Sealed b a :=
    ⟨hclosed.bracketed, fun u hu => hapart u ((List.mem_tails u a).2 hu)⟩
  have hown := mask_of_uncoded huncoded.code huncoded.block
  have hother := mask_of_uncoded huncoded'.code huncoded'.block
  have hmask : mask (a ++ b) = a ++ b := by
    rw [mask_append b (.inr hclosed.bracketed) huncoded.settled, hown, hother]
  have hcheck := (parse_eq_ok.1 ha).1
  have hcheck' := (parse_eq_ok.1 hb).1
  have hcontent := (parse_eq_ok.1 ha).2
  rw [hown] at hcheck hcontent
  rw [hother] at hcheck'
  obtain ⟨hsound, texts, texts', ns, htexts, hb', hall⟩ :=
    Markup.children_append hsealed (faults_of_check hcheck)
      (faults_of_check hcheck') he hz hend
  have hneutral : Source.Neutral (Markup.parse a).children := by
    refine ⟨(Source.check_document_eq_ok hcheck).1, ?_⟩
    intro n hn
    obtain ⟨hn, hflawed⟩ := hsound n hn
    refine ⟨?_, hflawed⟩
    exact Markup.Node.not_isFault_of_flawless hn (by simpa using hflawed) n
      (Markup.Node.mem_walk_of_mem (by simp))
  have hlimit : ∀ m ∈ walk (Markup.parse a).children, m.start ≤ a.length ∧ m.stop ≤ a.length := by
    intro m hm
    obtain ⟨n, hn, hm⟩ := Markup.Node.mem_walk.1 hm
    have hsound := (hsound n hn).1 m hm
    exact ⟨hsound.start_le, hsound.stop_le⟩
  have hinterrupts : Source.interrupts e = true := by
    rcases hkind with hkind | hkind | hkind <;> simp [Source.interrupts, hkind, Source.isSkipped]
  have hparse := parse_beside (b := b) hb he hinterrupts hstop hneutral hlimit htexts
    (by rw [hmask, hall]) (by rw [hother, hb']) hcontent
  rwa [hother] at hparse

/-- `<div><span></div>` and `<p>one` are accepted, and the one behind the
other is not: the `span` is reported, which was closed before. -/
theorem parse_behind_closed_span :
    let a : Text := ['<', 'd', 'i', 'v', '>', '<', 's', 'p', 'a', 'n', '>', '<', '/', 'd', 'i', 'v', '>']
    let b : Text := ['<', 'p', '>', 'o', 'n', 'e']
    (∃ xs, parse [] a = .ok xs) ∧ (∃ ys, parse [] b = .ok ys) ∧ Uncoded a ∧ Uncoded b ∧ Closed a
      ∧ Apart a b
      ∧ parse [] (a ++ b)
        = .error (.malformed (.unclosed ['s', 'p', 'a', 'n']) [] (some ⟨1, 6⟩)) := by
  intro a b
  have hxs : ∃ xs, parse [] a = .ok xs := refusal?_eq_none.1 (by decide +kernel)
  have hys : ∃ ys, parse [] b = .ok ys := refusal?_eq_none.1 (by decide +kernel)
  have huncoded : Uncoded a := ⟨by decide, by decide⟩
  have huncoded' : Uncoded b := ⟨by decide, by decide⟩
  have hclosed : Closed a := ⟨by decide +kernel, rfl⟩
  have hapart : Apart a b := by decide
  refine ⟨hxs, hys, huncoded, huncoded', hclosed, hapart, ?_⟩
  obtain ⟨xs, hxs⟩ := hxs
  obtain ⟨ys, hys⟩ := hys
  have hflawed : (Markup.parse b).flawed = true := by decide +kernel
  have hfound : (Source.unclosed? ⟨a, []⟩ (Markup.parse a).children).map (Source.refuseOpen ⟨a, []⟩)
      = some (.malformed (.unclosed ['s', 'p', 'a', 'n']) [] (some ⟨1, 6⟩)) := by decide +kernel
  obtain ⟨n, hn, hrefuse⟩ := Option.map_eq_some_iff.1 hfound
  rw [parse_behind_closed hxs hys huncoded huncoded' hclosed hapart, if_pos hflawed, hn]
  exact congrArg Except.error hrefuse

end KeyHarvest.Template
