/-
Which runs hold interpolations. A run is cut at its interpolations after
its references are replaced (`Source.ReadAs`), while angle brackets are
masked by a cut of the text as it is written. The two cuts need not agree:
a reference can stand for a brace, a quote or a backslash, or for nothing.
They agree on every run whose references are inert (`Charref.Part.Inert`):
it is then bound exactly when it holds interpolations as it is written, and
to as many expressions.
-/
import KeyHarvest.Proofs.Expr.Alike
import KeyHarvest.Proofs.Expr.Chunks
import KeyHarvest.Proofs.Expr.Interpolation
import KeyHarvest.Proofs.Markup.Reference
import KeyHarvest.Proofs.Template.Runs

namespace KeyHarvest

open Interpolated (Alike Unmarked opening split)

-- =============================================================== inert

/-- A reference that no cut depends on: it stands for something, and there
is no mark in it or in what it stands for. -/
def Charref.Part.Inert : Charref.Part → Prop
  | .plain _ => True
  | .reference written meaning => Unmarked written ∧ Unmarked meaning ∧ meaning ≠ []

instance : DecidablePred Charref.Part.Inert
  | .plain _ => isTrue trivial
  | .reference written meaning =>
      inferInstanceAs (Decidable (Unmarked written ∧ Unmarked meaning ∧ meaning ≠ []))

/-- Texts whose references are inert are like what they stand for. -/
theorem Charref.alike_of_inert {t : Text} {ps : List Charref.Part} (hps : Charref.parts t = .ok ps)
    (h : ∀ p ∈ ps, p.Inert) : Alike t (ps.flatMap Charref.Part.meaning) := by
  have hwritten : ∀ written meaning, .reference written meaning ∈ ps → written ≠ [] := by
    intro written meaning hp hnil
    obtain ⟨name, hname⟩ := Charref.written_of_mem_parts hps hp
    rw [hnil] at hname
    cases hname
  rw [← Charref.flatMap_written_of_parts hps]
  clear hps
  induction ps with
  | nil => exact .nil
  | cons p ps ih =>
      rw [List.forall_mem_cons] at h
      have hrest := ih h.2 fun written meaning hp => hwritten written meaning (List.mem_cons_of_mem p hp)
      cases p with
      | plain c => exact .same c hrest
      | reference written meaning =>
          obtain ⟨hw, hm, hmnil⟩ := h.1
          exact .other hw hm (hwritten written meaning List.mem_cons_self) hmnil hrest

namespace Template

-- =============================================================== nodes

/-- The expressions of a text node that is bound. -/
def Node.expressions? : Node → Option (List Expr)
  | .boundText (.sourced (.interpolation _ items) _) => some items
  | _ => none

/-- What is read of a text is bound to one expression for each chunk. -/
theorem Source.ReadAs.length_expressions {value : Text} {n : Node} (h : Source.ReadAs value n) :
    n.expressions?.map List.length = (split value).map fun i => i.chunks.length := by
  cases h with
  | text hread =>
      cases Expr.parseInterpolated_eq_iff.1 hread with
      | uncut hsplit =>
          rw [hsplit]
          rfl
  | bound hread =>
      cases Expr.parseInterpolated_eq_iff.1 hread with
      | read hsplit hitems =>
          rw [hsplit, Option.map_some, hitems.length_eq]
          rfl

/-- A text without opening braces is plain text. -/
theorem Source.ReadAs.eq_text {value : Text} {n : Node} (h : Source.ReadAs value n)
    (hholds : Text.holds opening value = false) : n = .text (Source.collapse value) := by
  have huncut : split value = none := by
    unfold split
    rw [Interpolated.cut_of_unopened hholds]
    rfl
  cases h with
  | text _ => rfl
  | bound hread =>
      cases Expr.parseInterpolated_eq_iff.1 hread with
      | read hsplit _ =>
          rw [huncut] at hsplit
          cases hsplit

/-- Every run of a template that is accepted is cut after its references
are replaced. It becomes text bound to one expression for each chunk when
there are any, and plain text otherwise, as it always does when there are
no opening braces then. If its references are inert, the chunks are as many
as in the run as it is written. -/
theorem runs_cut_decoded {path text : Text} {nodes : List Node} (h : parse path text = .ok nodes) :
    List.Forall₂ (fun raw n => ∃ value, Charref.decode raw = .ok value ∧ Source.ReadAs value n
        ∧ n.expressions?.map List.length = ((split value).map fun i => i.chunks.length)
        ∧ (Text.holds opening value = false → n = .text (Source.collapse value))
        ∧ ∀ ps, Charref.parts raw = .ok ps → (∀ p ∈ ps, p.Inert) →
          n.expressions?.map List.length = (split raw).map fun i => i.chunks.length)
      (Source.runs ⟨text, path⟩) (textNodes nodes) := by
  refine (forall₂_runs h).imp fun raw n hbecomes => ?_
  obtain ⟨-, value, hvalue, hreads⟩ := Source.runBecomes_iff.1 hbecomes
  refine ⟨value, hvalue, hreads, hreads.length_expressions, hreads.eq_text, ?_⟩
  intro ps hps hinert
  obtain ⟨ps', hps', -, hmeaning⟩ := Charref.exists_parts_of_decode hvalue
  rw [hps] at hps'
  cases hps'
  rw [hreads.length_expressions, ← hmeaning,
    Interpolated.split_alike (Charref.alike_of_inert hps hinert)]

-- =========================================================== one run

namespace Source

/-- Content that nothing interrupts is one stretch of text. -/
theorem content_of_uninterrupted {s : Source} {cursor stop : Nat} {ns : List Markup.Node}
    (h : ∀ n ∈ ns, interrupts n = false) :
    s.content cursor stop ns = (s.textNode? (Text.slice s.text cursor stop)).map Option.toList := by
  induction ns with
  | nil =>
      rw [content]
      cases s.textNode? (Text.slice s.text cursor stop) <;> rfl
  | cons n ns ih =>
      rw [List.forall_mem_cons, interrupts, Bool.or_eq_false_iff] at h
      obtain ⟨⟨hkind, hskipped⟩, hns⟩ := h
      rw [content, if_neg (of_decide_eq_false hkind), if_neg (by rw [hskipped]; exact Bool.false_ne_true)]
      exact ih hns

end Source

/-- A template without elements, comments and the like is one stretch of
text. -/
theorem parse_of_uninterrupted {path text : Text}
    (hcheck : (Source.check ⟨text, path⟩ (Markup.parse (mask text))).isOk = true)
    (h : (Markup.parse (mask text)).children.all (fun n => !Source.interrupts n) = true) :
    parse path text = (Source.textNode? ⟨text, path⟩ text).map Option.toList := by
  rw [List.all_eq_true] at h
  have hwhole : Text.slice text 0 (Markup.parse (mask text)).stop = text := by
    show Text.slice text 0 (mask text).length = text
    rw [length_mask, Text.slice, List.drop_zero, Nat.sub_zero, List.take_length]
  have hcontent : Source.content ⟨text, path⟩ 0 (Markup.parse (mask text)).stop
      (Markup.parse (mask text)).children
        = (Source.textNode? ⟨text, path⟩ text).map Option.toList := by
    rw [Source.content_of_uninterrupted fun n hn => by simpa using h n hn, hwhole]
  unfold parse
  cases hok : Source.check ⟨text, path⟩ (Markup.parse (mask text)) with
  | error e =>
      rw [hok] at hcheck
      cases hcheck
  | ok u =>
      dsimp only
      rw [hok]
      exact hcontent

/-- A template that is one run. -/
theorem parse_of_run {path text : Text} {n : Node}
    (hcheck : (Source.check ⟨text, path⟩ (Markup.parse (mask text))).isOk = true)
    (h : (Markup.parse (mask text)).children.all (fun n => !Source.interrupts n) = true)
    (hrun : Source.RunBecomes ⟨text, path⟩ text n) :
    parse path text = .ok [n] ∧ textNodes [n] = [n] := by
  obtain ⟨htext, hchildren, -⟩ := Source.isText_of_textNode? hrun
  have hnode : Source.textNode? ⟨text, path⟩ text = .ok (some n) := hrun
  constructor
  · rw [parse_of_uninterrupted hcheck h, hnode]
    rfl
  · rw [textNodes_singleton, if_pos htext, hchildren]
    rfl

/-- A reference inside the code of an interpolation that stands for an angle
bracket is inert. -/
theorem runs_cut_decoded_inert :
    let text : Text := Text.ofString "{{ a &lt; b }}"
    ∃ nodes, parse [] text = .ok nodes
      ∧ ∃ n, textNodes nodes = [n] ∧ n.expressions?.map List.length = some 1 := by
  intro text
  have hcode : Expr.ReadsAlone ⟨Text.ofString " a < b ", 2⟩
      (.binary .lt (.property .context ['a']) (.property .context ['b'])) := by
    have htokens : tokenize 0 (Text.ofString " a < b ")
        = .ok [⟨.name ['a'], 1⟩, ⟨.operator (.binary .lt), 3⟩, ⟨.name ['b'], 5⟩] := by
      decide +kernel
    refine ⟨by decide, ?_⟩
    rw [Expr.parseAt_eq, htokens]
    cbv
  have hsplit : split (Text.ofString "{{ a < b }}")
      = some ⟨[], [(⟨Text.ofString " a < b ", 2⟩, [])]⟩ := by
    decide +kernel
  have hread := Expr.parseInterpolated_eq_iff.2 (.read hsplit (.cons hcode .nil))
  have hrun : Source.RunBecomes ⟨text, []⟩ text _ :=
    Source.runBecomes_iff.2 ⟨by decide, Text.ofString "{{ a < b }}", by decide +kernel, .bound hread⟩
  obtain ⟨hparse, hnodes⟩ := parse_of_run (by decide +kernel) (by decide +kernel) hrun
  have hruns : Source.runs ⟨text, []⟩ = [text] := by decide +kernel
  have hall := runs_cut_decoded hparse
  rw [hruns, hnodes] at hall
  cases hall with
  | cons hn _ =>
      obtain ⟨value, -, -, -, -, hinert⟩ := hn
      have hsplit : (split text).map (fun i => i.chunks.length) = some 1 := by decide +kernel
      have hparts : Charref.parts text = .ok ((Text.ofString "\x7b\x7b a ").map .plain
          ++ .reference (Text.ofString "&lt;") ['<'] :: (Text.ofString " b \x7d\x7d").map .plain) := by
        decide +kernel
      exact ⟨_, hparse, _, hnodes, (hinert _ hparts (by decide)).trans hsplit⟩

/-- Opening braces that are written as references are not there for the
mask, but the run is bound. -/
theorem bound_without_braces :
    let text : Text := Text.ofString "&#123;&#123; a \x7d\x7d"
    Source.runs ⟨text, []⟩ = [text] ∧ split text = none ∧ Text.holds opening text = false
      ∧ ∃ nodes e, parse [] text = .ok nodes ∧ textNodes nodes = [.boundText e] := by
  intro text
  have hcode : Expr.ReadsAlone ⟨Text.ofString " a ", 2⟩ (.property .context ['a']) := by
    have htokens : tokenize 0 (Text.ofString " a ") = .ok [⟨.name ['a'], 1⟩] := by decide +kernel
    refine ⟨by decide, ?_⟩
    rw [Expr.parseAt_eq, htokens]
    cbv
  have hsplit : split (Text.ofString "{{ a }}") = some ⟨[], [(⟨Text.ofString " a ", 2⟩, [])]⟩ := by
    decide +kernel
  have hread := Expr.parseInterpolated_eq_iff.2 (.read hsplit (.cons hcode .nil))
  have hrun : Source.RunBecomes ⟨text, []⟩ text _ :=
    Source.runBecomes_iff.2 ⟨by decide, Text.ofString "{{ a }}", by decide +kernel, .bound hread⟩
  obtain ⟨hparse, hnodes⟩ := parse_of_run (by decide +kernel) (by decide +kernel) hrun
  exact ⟨by decide +kernel, by decide +kernel, by decide +kernel, _, _, hparse, hnodes⟩

end Template

end KeyHarvest
