/-
A comment before a template. A comment gives no nodes, but the code that
seems to begin in it is looked for all the same, and its end may be found
in the template behind it. Then the bracket that ends the comment is
masked.

So a comment leaves the template behind it alone exactly when it is
settled (`settled_iff`). For a comment that is not, there is always a
template that is accepted by itself and not behind the comment: the text
that completes the code.
-/
import KeyHarvest.Proofs.Template.Beside
import KeyHarvest.Proofs.Template.Unmarked

namespace KeyHarvest.Template

open Markup (Bracketed Clipped commentLength?)
open Markup.Node (walk)

/-- Behind a comment that is settled a template has the same nodes, further
down. -/
theorem parse_behind_comment {path m b : Text} {ys : List Node}
    (hm : commentLength? m = some m.length) (hsettled : Settled m) (hb : parse path b = .ok ys) :
    parse path (m ++ b) = .ok (ys.map (Node.down (lineFeeds m))) := by
  have hmask : mask (m ++ b) = mask m ++ mask b :=
    mask_append b (.inr (Markup.bracketed_of_comment hm)) hsettled
  obtain ⟨texts, texts', ns, htexts, hown, hall⟩ :=
    Markup.children_of_comment (Markup.commentLength?_mask hm) (faults_of_check (parse_eq_ok.1 hb).1)
  rw [← hmask, length_mask] at hall
  have hwalk : walk [Markup.Node.leaf .comment 0 m.length] = [.leaf .comment 0 m.length] :=
    Markup.Node.walk_of_childless (by simp [Markup.Node.leaf])
  have hneutral : Source.Neutral [.leaf .comment 0 m.length] := by
    refine ⟨?_, ?_⟩
    · rw [hwalk]
      simp [Markup.Node.leaf]
    · simp [Markup.Node.leaf, Markup.Node.isFault]
  have hopen : Source.unclosed? ⟨m, path⟩ [.leaf .comment 0 m.length] = none := by
    unfold Source.unclosed?
    rw [hwalk]
    rfl
  have hlimit : ∀ n ∈ walk [Markup.Node.leaf .comment 0 m.length],
      n.start ≤ m.length ∧ n.stop ≤ m.length := by
    rw [hwalk]
    simp [Markup.Node.leaf]
  have hcontent : Source.content ⟨m, path⟩ 0 m.length [.leaf .comment 0 m.length] = .ok [] := by
    have hrest := Source.content_nil ⟨m, path⟩ m.length
    have hskipped : Source.isSkipped (Markup.Node.leaf .comment 0 m.length).kind = true := rfl
    rw [Source.content, if_neg (by simp [Markup.Node.leaf]), if_pos hskipped]
    refine bind_eq_ok.2 ⟨none, ?_, bind_eq_ok.2 ⟨[], hrest, rfl⟩⟩
    rfl
  have hparse := parse_beside hb rfl rfl rfl hneutral hlimit htexts hall hown hcontent
  rwa [hopen, ite_self, List.nil_append] at hparse

-- ==================================================== plain templates

/-- Text without references and code is kept as it is. -/
theorem textNode?_of_plain {s : Source} {raw : Text} (hblank : Text.isBlank raw = false)
    (hreference : CodePoint.ofChar '&' ∉ raw) (hcode : Text.holds ['{', '{'] raw = false) :
    s.textNode? raw = .ok (some (.text (Source.collapse raw))) := by
  have hdecode : Source.decode raw = .ok raw := by
    unfold Source.decode
    rw [Charref.decode_of_not_mem hreference]
    rfl
  have hexpr : Expr.parseInterpolated raw = .ok none := by
    unfold Expr.parseInterpolated Interpolated.split
    rw [Interpolated.cut_of_unopened hcode]
    rfl
  unfold Source.textNode?
  rw [if_neg (by simp [hblank])]
  refine bind_eq_ok.2 ⟨raw, hdecode, ?_⟩
  rw [hexpr]

/-- The tree of a text that is no markup. -/
theorem exists_parse_of_text {c : CodePoint} {cs : Text} (hgap : Markup.isGap c = false)
    (hspace : Markup.isSpace c = false) (hmark : Text.starts (.ofNat 0xFEFF) (c :: cs) = false)
    (h : ∀ d ∈ c :: cs, Markup.isTextChar d = true) :
    ∃ stop, Markup.parse (c :: cs)
      = .branch .document 0 (c :: cs).length [.leaf .text 0 stop] := by
  have htext := h c List.mem_cons_self
  have hopen : c ≠ '<' := by
    intro hc
    rw [hc] at htext
    revert htext
    decide
  have hrun : (c :: cs).takeWhile Markup.isTextChar = c :: cs := List.takeWhile_eq_self_iff.2 h
  have hlead : Markup.leadingComment? (c :: cs) = none := Markup.leadingComment?_eq_none hgap hopen
  obtain ⟨stop, hpieces⟩ := Markup.pieces_of_text 0 (by simp [hspace]) htext hlead
  rw [hrun, List.drop_length, Markup.pieces] at hpieces
  refine ⟨stop, Markup.parse_of_plain ?_ hpieces⟩
  unfold Markup.markupStart
  rw [hmark]
  rfl

theorem holds_of_not_mem {c : CodePoint} {lit t : Text} (h : c ∉ t) :
    Text.holds (c :: lit) t = false := by
  induction t with
  | nil => rfl
  | cons d ds ih =>
      have hne : (c == d) = false := by
        rw [beq_eq_false_iff_ne]
        intro hc
        exact h (by rw [hc]; exact List.mem_cons_self)
      rw [Text.holds, List.isPrefixOf, hne, Bool.false_and, Bool.false_or]
      exact ih fun hmem => h (List.mem_cons_of_mem d hmem)

/-- A text of closers is a template. -/
theorem exists_parse_closers {t : Text} (path : Text) (hne : t ≠ [])
    (h : ∀ c ∈ t, c ∈ Mask.closers) : ∃ nodes, parse path t = .ok nodes := by
  -- such code points mean nothing to any of the readers
  have hplain : ∀ c ∈ Mask.closers, Markup.isTextChar c = true ∧ Markup.isSpace c = false
      ∧ Markup.isGap c = false ∧ c.isBlank = false ∧ c ≠ .ofNat 0xFEFF
      ∧ (c ≠ '<' ∧ c ≠ '>') ∧ c ≠ '&' ∧ c ≠ '{' := by
    decide
  obtain ⟨c, cs, rfl⟩ := List.exists_cons_of_ne_nil hne
  obtain ⟨-, hspace, hgap, hblank, hmark, -⟩ := hplain c (h c List.mem_cons_self)
  have hmask : mask (c :: cs) = c :: cs := by
    apply Mask.blankOut_of_unbracketed
    intro d hd
    obtain ⟨-, -, -, -, -, hbrackets, -⟩ := hplain d (h d hd)
    exact hbrackets
  have hreference : CodePoint.ofChar '&' ∉ c :: cs := by
    intro hmem
    obtain ⟨-, -, -, -, -, -, hne, -⟩ := hplain _ (h _ hmem)
    exact hne rfl
  have hbrace : CodePoint.ofChar '{' ∉ c :: cs := by
    intro hmem
    obtain ⟨-, -, -, -, -, -, -, hne⟩ := hplain _ (h _ hmem)
    exact hne rfl
  have hstart : Text.starts (.ofNat 0xFEFF) (c :: cs) = false := by simp [Text.starts, hmark]
  obtain ⟨stop, hroot⟩ := exists_parse_of_text hgap hspace hstart fun d hd =>
    (hplain d (h d hd)).1
  have htext : ∀ n ∈ [Markup.Node.leaf .text 0 stop], n.IsTextLeaf := by
    intro n hn
    exact ⟨0, stop, List.mem_singleton.1 hn⟩
  refine ⟨[.text (Source.collapse (c :: cs))], parse_eq_ok.2 ?_⟩
  rw [hmask, hroot]
  refine ⟨Source.check_of_unmarked ?_, ?_⟩
  · intro n hn
    rw [List.mem_singleton.1 hn]
    exact ⟨.inl rfl, rfl, rfl⟩
  · have hslice : Text.slice (c :: cs) 0 (c :: cs).length = c :: cs := by
      unfold Text.slice
      rw [List.drop_zero, Nat.sub_zero, List.take_length]
    have hnode : Source.textNode? ⟨c :: cs, path⟩ (c :: cs) = _ :=
      textNode?_of_plain (by simp [Text.isBlank, hblank]) hreference (holds_of_not_mem hbrace)
    show Source.content _ 0 (c :: cs).length ([Markup.Node.leaf .text 0 stop] ++ []) = _
    rw [Source.content_of_text htext, Source.content, hslice, hnode]
    rfl

-- =========================================================== comments

/-- A comment leaves what stands behind it alone exactly when it is
settled: every template that is accepted is accepted behind it, with the
same nodes further down and so with the same keys. -/
theorem settled_iff_parse_behind {m : Text} (hm : commentLength? m = some m.length) (path : Text) :
    Settled m ↔ ∀ b ys, parse path b = .ok ys →
      ∃ zs, parse path (m ++ b) = .ok zs ∧ zs = ys.map (Node.down (lineFeeds m))
        ∧ ∀ keys : MarkedKeys, keys.nodesKeys zs = keys.nodesKeys ys := by
  constructor
  · intro hsettled b ys hb
    refine ⟨_, parse_behind_comment hm hsettled hb, rfl, ?_⟩
    intro keys
    exact keys.nodesKeys_down _ ys
  · intro hall
    by_cases hsettled : Settled m
    · exact hsettled
    -- closers are a template, and make the comment malformed
    obtain ⟨b, hne, hclosers, hopening, hnone⟩ := Markup.exists_closers_of_comment hm hsettled
    obtain ⟨ys, hys⟩ := exists_parse_closers path hne hclosers
    obtain ⟨zs, hzs, -⟩ := hall b ys hys
    have hfaults := faults_of_check (parse_eq_ok.1 hzs).1
    exact absurd hfaults (Markup.faults_of_opening hopening hnone)

/-- The comment `<!-- @if (a) {{ b }} -->` is settled, and `<!-- {{ -->` is
not. -/
theorem settled_iff_parse_behind_braces :
    let done : Text := ['<', '!', '-', '-', ' ', '@', 'i', 'f', ' ', '(', 'a', ')', ' ', '{', '{', ' ', 'b', ' ',
      '}', '}', ' ', '-', '-', '>']
    let left : Text := ['<', '!', '-', '-', ' ', '{', '{', ' ', '-', '-', '>']
    (commentLength? done = some done.length ∧ ∀ b ys, parse [] b = .ok ys →
      ∃ zs, parse [] (done ++ b) = .ok zs ∧ zs = ys.map (Node.down (lineFeeds done))
        ∧ ∀ keys : MarkedKeys, keys.nodesKeys zs = keys.nodesKeys ys)
    ∧ (commentLength? left = some left.length ∧ ¬ ∀ b ys, parse [] b = .ok ys →
      ∃ zs, parse [] (left ++ b) = .ok zs ∧ zs = ys.map (Node.down (lineFeeds left))
        ∧ ∀ keys : MarkedKeys, keys.nodesKeys zs = keys.nodesKeys ys) := by
  intro done left
  have hdone : commentLength? done = some done.length := by decide
  have hleft : commentLength? left = some left.length := by decide
  refine ⟨⟨hdone, ?_⟩, hleft, ?_⟩
  · exact (settled_iff_parse_behind hdone []).1 (by decide +kernel)
  · intro hall
    exact absurd ((settled_iff_parse_behind hleft []).2 hall) (by decide +kernel)

end KeyHarvest.Template
