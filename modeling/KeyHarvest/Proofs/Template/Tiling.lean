/-
Content without gaps. Between the tags of an element, or in a whole
document, everything is one of three things: a stretch of text, a child
element, or something that gives no nodes, such as a comment. `segments`
lists them, and in a tree whose nodes lie in order inside their parents,
such as that of any text (`laid_parse`), they tile the content: each begins
where the one before it ends (`tiles_segments`).

Content is built segment by segment (`content_eq_ok`, `content_eq_error`).
An element gives one node, and so does a stretch of text that is not blank;
nothing else gives any. The refusal of content is that of the first segment
that is refused. `Source.Becomes` says what a segment comes to.
-/
import KeyHarvest.Proofs.Expr.Origin
import KeyHarvest.Proofs.Markup.Layout
import KeyHarvest.Proofs.Template.Beside

namespace KeyHarvest.Template

open Markup (Kind)
open Markup.Node (walk)

-- ============================================================ segments

/-- A part of some content: a stretch of text, a child element, or a child
that gives no nodes. -/
inductive Segment where
  | text (start stop : Nat)
  | element (node : Markup.Node)
  | skipped (node : Markup.Node)

namespace Segment

/-- Where a segment begins. -/
def start : Segment → Nat
  | text a _ => a
  | element n => n.start
  | skipped n => n.start

/-- Where a segment ends. -/
def stop : Segment → Nat
  | text _ b => b
  | element n => n.stop
  | skipped n => n.stop

/-- The segments that are children. -/
def isChild : Segment → Bool
  | text _ _ => false
  | _ => true

/-- The segment that a child is. -/
def ofChild (n : Markup.Node) : Segment := if n.kind = .element then element n else skipped n

end Segment

/-- Segments that fill the span from `start` to `stop`, each beginning where
the one before it ends. -/
def Tiles (start stop : Nat) : List Segment → Prop
  | [] => start = stop
  | g :: gs => g.start = start ∧ g.start ≤ g.stop ∧ Tiles g.stop stop gs

/-- The segments of content from `cursor` up to `stop` with these nodes in
it. -/
def segments (cursor stop : Nat) : List Markup.Node → List Segment
  | [] => [.text cursor stop]
  | n :: ns =>
      if n.kind = .element then
        .text cursor n.start :: .element n :: segments n.stop stop ns
      else if Source.isSkipped n.kind then
        .text cursor n.start :: .skipped n :: segments n.stop stop ns
      else segments cursor stop ns

/-- The span of the content of a node: a whole document, or an element from
its tag up to its end tag, or to its own end. A self-closing tag has no
content. -/
def contentSpan? (n : Markup.Node) : Option (Nat × Nat) :=
  match n.kind with
  | .document => some (0, n.stop)
  | .element =>
      if n.openingTag.kind = .selfClosingTag then none
      else some (n.openingTag.stop, ((n.child? .endTag).map (·.start)).getD n.stop)
  | _ => none

-- ============================================================== tiling

/-- Every child that interrupts text is a segment of its own, in order. -/
theorem filter_isChild_segments (cursor stop : Nat) (ns : List Markup.Node) :
    (segments cursor stop ns).filter Segment.isChild
      = (ns.filter Source.interrupts).map Segment.ofChild := by
  induction ns generalizing cursor with
  | nil => rfl
  | cons n ns ih =>
      rw [segments, List.filter_cons]
      by_cases hkind : n.kind = .element
      · rw [if_pos hkind, if_pos (by simp [Source.interrupts, hkind]), List.map_cons,
          Segment.ofChild, if_pos hkind]
        exact congrArg (Segment.element n :: ·) (ih n.stop)
      · rw [if_neg hkind]
        by_cases hskipped : Source.isSkipped n.kind = true
        · rw [if_pos hskipped, if_pos (by simp [Source.interrupts, hskipped]), List.map_cons,
            Segment.ofChild, if_neg hkind]
          exact congrArg (Segment.skipped n :: ·) (ih n.stop)
        · rw [if_neg hskipped, if_neg (by simp [Source.interrupts, hkind, hskipped])]
          exact ih cursor

/-- Segments of nodes in order leave no gap and do not overlap. -/
theorem tiles_segments {cursor stop : Nat} {ns : List Markup.Node} (hle : cursor ≤ stop)
    (hns : ∀ n ∈ ns, Source.interrupts n = true →
      cursor ≤ n.start ∧ n.start ≤ n.stop ∧ n.stop ≤ stop)
    (hapart : ns.Pairwise fun a b => a.stop ≤ b.start) : Tiles cursor stop (segments cursor stop ns) := by
  induction ns generalizing cursor with
  | nil => exact ⟨rfl, hle, rfl⟩
  | cons n ns ih =>
      rw [List.forall_mem_cons] at hns
      rw [List.pairwise_cons] at hapart
      have hrest : Source.interrupts n = true → Tiles n.stop stop (segments n.stop stop ns) := by
        intro hn
        refine ih (hns.1 hn).2.2 (fun m hm hinterrupts => ?_) hapart.2
        exact ⟨hapart.1 m hm, (hns.2 m hm hinterrupts).2⟩
      rw [segments]
      by_cases hkind : n.kind = .element
      · have hn : Source.interrupts n = true := by simp [Source.interrupts, hkind]
        obtain ⟨hstart, hforward, -⟩ := hns.1 hn
        rw [if_pos hkind]
        exact ⟨rfl, hstart, rfl, hforward, hrest hn⟩
      · rw [if_neg hkind]
        by_cases hskipped : Source.isSkipped n.kind = true
        · have hn : Source.interrupts n = true := by simp [Source.interrupts, hskipped]
          obtain ⟨hstart, hforward, -⟩ := hns.1 hn
          rw [if_pos hskipped]
          exact ⟨rfl, hstart, rfl, hforward, hrest hn⟩
        · rw [if_neg hskipped]
          exact ih hle hns.2 hapart.2

/-- An element in order is its tag, what is inside it, and its end tag if it
has one. -/
theorem exists_children_eq {n : Markup.Node} (h : n.Laid) (hkind : n.kind = .element) :
    (n.openingTag.kind = .startTag ∨ n.openingTag.kind = .selfClosingTag)
      ∧ ∃ inner, n.children = n.openingTag :: (inner ++ (n.child? .endTag).toList) := by
  obtain ⟨tag, htag, hopening⟩ := h.tagged hkind
  obtain ⟨rest, hchildren⟩ := List.head?_eq_some_iff.1 htag
  have hfirst : n.openingTag = tag := by
    rw [Markup.Node.openingTag, hchildren]
    rfl
  rw [hfirst]
  refine ⟨hopening, ?_⟩
  cases hcloser : n.child? .endTag with
  | none => exact ⟨rest, by rw [hchildren, Option.toList_none, List.append_nil]⟩
  | some closer =>
      obtain ⟨hend, before, after, hsplit, -⟩ := List.find?_eq_some_iff_append.1 hcloser
      have hend : closer.kind = .endTag := of_decide_eq_true hend
      have hlast : after = [] := by
        cases after with
        | nil => rfl
        | cons m ms =>
            apply absurd hend (h.ended hkind closer _)
            rw [hsplit, List.dropLast_append_of_ne_nil (by simp)]
            simp
      subst hlast
      cases before with
      | nil =>
          rw [hchildren] at hsplit
          cases hsplit
          rcases hopening with hopening | hopening <;> rw [hopening] at hend <;> cases hend
      | cons m before =>
          rw [hchildren] at hsplit
          cases hsplit
          exact ⟨before, hchildren⟩

/-- The tags of an element interrupt no text. -/
theorem mem_inner_of_interrupts {tag c : Markup.Node} {inner : List Markup.Node}
    {closer : Option Markup.Node} (htag : tag.kind = .startTag ∨ tag.kind = .selfClosingTag)
    (hcloser : ∀ z ∈ closer, z.kind = .endTag) (hc : c ∈ tag :: (inner ++ closer.toList))
    (hinterrupts : Source.interrupts c = true) : c ∈ inner := by
  rcases List.mem_cons.1 hc with rfl | hc
  · rcases htag with hkind | hkind <;>
      simp [Source.interrupts, Source.isSkipped, hkind] at hinterrupts
  · rcases List.mem_append.1 hc with hc | hc
    · exact hc
    · have hkind := hcloser c (Option.mem_toList.1 hc)
      simp [Source.interrupts, Source.isSkipped, hkind] at hinterrupts

/-- The children that interrupt the text of a node in order lie inside its
content. -/
theorem inside_content {n : Markup.Node} (h : n.Laid) {a b : Nat}
    (hspan : contentSpan? n = some (a, b)) :
    a ≤ b ∧ ∀ c ∈ n.children, Source.interrupts c = true →
      a ≤ c.start ∧ c.start ≤ c.stop ∧ c.stop ≤ b := by
  unfold contentSpan? at hspan
  split at hspan
  · cases hspan
    exact ⟨Nat.zero_le _, fun c hc _ => ⟨Nat.zero_le _, (h.inside c hc).2⟩⟩
  · next hkind =>
      split at hspan
      · cases hspan
      · cases hspan
        obtain ⟨htag, inner, hchildren⟩ := exists_children_eq h hkind
        have hend : ∀ z ∈ n.child? .endTag, z.kind = .endTag := fun z hz =>
          of_decide_eq_true (List.find?_some hz :)
        have hinside := h.inside
        have hapart := h.apart
        rw [hchildren] at hinside hapart ⊢
        generalize n.openingTag = tag at htag hinside hapart
        generalize n.child? .endTag = closer at hend hinside hapart
        obtain ⟨hbehind, hrest⟩ := List.pairwise_cons.1 hapart
        have hinner : ∀ c ∈ tag :: (inner ++ closer.toList), Source.interrupts c = true →
            c ∈ inner := fun c => mem_inner_of_interrupts htag hend
        cases closer with
        | none =>
            refine ⟨(hinside tag (by simp)).2.2, fun c hc hinterrupts => ?_⟩
            have hmem := hinner c hc hinterrupts
            exact ⟨hbehind c (by simp [hmem]), (hinside c hc).2⟩
        | some z =>
            refine ⟨hbehind z (by simp), fun c hc hinterrupts => ?_⟩
            have hmem := hinner c hc hinterrupts
            exact ⟨hbehind c (by simp [hmem]), (hinside c hc).2.1,
              (List.pairwise_append.1 hrest).2.2 c hmem z (by simp)⟩
  · cases hspan

-- ============================================================ building

namespace Source

/-- The refusal of an expression in running text, as one of the template. -/
def refuseText (s : Source) (value : Text) : ExprError → Error
  | .malformed fault _ => .malformed (.interpolation fault (Text.trim value)) s.path none
  | .oversized digits => .oversized digits

/-- What a segment becomes. A stretch of text that is not blank becomes one
node, or is refused for a numeral that is too long or for an expression in
it. -/
inductive Becomes (s : Source) : Segment → Except Error (List Node) → Prop where
  | blank {a b : Nat} (h : Text.isBlank (Text.slice s.text a b) = true) :
      Becomes s (.text a b) (.ok [])
  | numeral {a b : Nat} {e : Oversized} (h : Text.isBlank (Text.slice s.text a b) = false)
      (hvalue : Charref.decode (Text.slice s.text a b) = .error e) :
      Becomes s (.text a b) (.error (.oversized e.digits))
  | text {a b : Nat} {value : Text} (h : Text.isBlank (Text.slice s.text a b) = false)
      (hvalue : Charref.decode (Text.slice s.text a b) = .ok value)
      (hplain : Expr.parseInterpolated value = .ok none) :
      Becomes s (.text a b) (.ok [.text (collapse value)])
  | boundText {a b : Nat} {value : Text} {e : Expr}
      (h : Text.isBlank (Text.slice s.text a b) = false)
      (hvalue : Charref.decode (Text.slice s.text a b) = .ok value)
      (hbound : Expr.parseInterpolated value = .ok (some e)) :
      Becomes s (.text a b) (.ok [.boundText e])
  | expression {a b : Nat} {value : Text} {e : ExprError}
      (h : Text.isBlank (Text.slice s.text a b) = false)
      (hvalue : Charref.decode (Text.slice s.text a b) = .ok value)
      (hrefused : Expr.parseInterpolated value = .error e) :
      Becomes s (.text a b) (.error (s.refuseText value e))
  | element {n : Markup.Node} {node : Node} (h : s.element n = .ok node) :
      Becomes s (.element n) (.ok [node])
  | refused {n : Markup.Node} {e : Error} (h : s.element n = .error e) :
      Becomes s (.element n) (.error e)
  | skipped {n : Markup.Node} : Becomes s (.skipped n) (.ok [])

/-- The nodes of a segment. -/
def build (s : Source) : Segment → Except Error (List Node)
  | .text a b => (s.textNode? (Text.slice s.text a b)).map Option.toList
  | .element n => (s.element n).map ([·])
  | .skipped _ => .ok []

variable {s : Source}

/-- An element is built from its content and then from its tag. -/
theorem element_eq {n : Markup.Node} {a b : Nat} (hkind : n.kind = .element)
    (hspan : contentSpan? n = some (a, b)) :
    s.element n = (do
      let inner ← s.content a b n.children
      let attributes ← s.attributes n.openingTag.children
      return assemble (s.tagName n.openingTag) attributes inner
        (Place.ofOffset s.text n.start).line) := by
  obtain ⟨kind, start, stop, flawed, children⟩ := n
  cases hkind
  rw [contentSpan?] at hspan
  dsimp only at hspan
  split at hspan
  · cases hspan
  · next hopening =>
      cases hspan
      rw [element]
      exact if_neg hopening

/-- Content is built segment by segment. -/
theorem content_eq (cursor stop : Nat) (ns : List Markup.Node) :
    s.content cursor stop ns = (do
      let parts ← (segments cursor stop ns).mapM s.build
      return parts.flatten) := by
  induction ns generalizing cursor with
  | nil =>
      rw [content, segments, List.mapM_cons, List.mapM_nil, build]
      cases s.textNode? (Text.slice s.text cursor stop) with
      | error e => rfl
      | ok o => cases o <;> rfl
  | cons n ns ih =>
      rw [content, segments]
      by_cases hkind : n.kind = .element
      · rw [if_pos hkind, if_pos hkind, List.mapM_cons, List.mapM_cons, build, build, ih]
        cases s.textNode? (Text.slice s.text cursor n.start) with
        | error e => rfl
        | ok before =>
            cases s.element n with
            | error e => rfl
            | ok node => cases (segments n.stop stop ns).mapM s.build <;> rfl
      · rw [if_neg hkind, if_neg hkind]
        by_cases hskipped : isSkipped n.kind = true
        · rw [if_pos hskipped, if_pos hskipped, List.mapM_cons, List.mapM_cons, build, build, ih]
          cases s.textNode? (Text.slice s.text cursor n.start) with
          | error e => rfl
          | ok before => cases (segments n.stop stop ns).mapM s.build <;> rfl
        · rw [if_neg hskipped, if_neg hskipped]
          exact ih cursor

/-- Text that is not blank is a node of the one kind or the other, or is
refused. -/
theorem textNode?_eq {raw : Text} (h : Text.isBlank raw = false) :
    s.textNode? raw = match Charref.decode raw with
      | .error e => .error (.oversized e.digits)
      | .ok value => match Expr.parseInterpolated value with
        | .error e => .error (s.refuseText value e)
        | .ok none => .ok (some (.text (collapse value)))
        | .ok (some e) => .ok (some (.boundText e)) := by
  rw [textNode?, if_neg (by simp [h]), decode]
  cases Charref.decode raw with
  | error e => rfl
  | ok value =>
      simp only [Except.mapError, bind, Except.bind]
      cases Expr.parseInterpolated value with
      | error e => cases e <;> rfl
      | ok o => cases o <;> rfl

/-- Every segment becomes what it is built into. -/
theorem becomes_build (g : Segment) : s.Becomes g (s.build g) := by
  cases g with
  | text a b =>
      rw [build]
      cases hraw : Text.isBlank (Text.slice s.text a b) with
      | true =>
          rw [textNode?, if_pos hraw]
          exact .blank hraw
      | false =>
          rw [textNode?_eq hraw]
          cases hvalue : Charref.decode (Text.slice s.text a b) with
          | error e => exact .numeral hraw hvalue
          | ok value =>
              cases hread : Expr.parseInterpolated value with
              | error e =>
                  simp only [hread]
                  exact .expression hraw hvalue hread
              | ok o =>
                  cases o with
                  | none =>
                      simp only [hread]
                      exact .text hraw hvalue hread
                  | some e =>
                      simp only [hread]
                      exact .boundText hraw hvalue hread
  | element n =>
      rw [build]
      cases h : s.element n with
      | error e => exact .refused h
      | ok node => exact .element h
  | skipped n => exact .skipped

/-- A segment is built into what it becomes, and nothing else. -/
theorem build_eq_iff {g : Segment} {outcome : Except Error (List Node)} :
    s.build g = outcome ↔ s.Becomes g outcome := by
  constructor
  · intro h
    rw [← h]
    exact becomes_build g
  · intro h
    cases h with
    | blank hraw => rw [build, textNode?, if_pos hraw]; rfl
    | numeral hraw hvalue => rw [build, textNode?_eq hraw, hvalue]; rfl
    | text hraw hvalue hread => simp only [build, textNode?_eq hraw, hvalue, hread]; rfl
    | boundText hraw hvalue hread => simp only [build, textNode?_eq hraw, hvalue, hread]; rfl
    | expression hraw hvalue hread => simp only [build, textNode?_eq hraw, hvalue, hread]; rfl
    | element h => rw [build, h]; rfl
    | refused h => rw [build, h]; rfl
    | skipped => rfl

/-- Content has the nodes of its segments, one segment after the other. -/
theorem content_eq_ok {cursor stop : Nat} {ns : List Markup.Node} {nodes : List Node} :
    s.content cursor stop ns = .ok nodes ↔ ∃ parts,
      List.Forall₂ (fun g part => s.Becomes g (.ok part)) (segments cursor stop ns) parts
        ∧ nodes = parts.flatten := by
  rw [content_eq, bind_eq_ok]
  constructor
  · intro h
    obtain ⟨parts, hparts, h⟩ := h
    have hall := forall₂_of_mapM_eq_ok hparts
    exact ⟨parts, hall.imp fun g part hg => build_eq_iff.1 hg, (Except.ok.inj h).symm⟩
  · intro h
    obtain ⟨parts, hall, rfl⟩ := h
    exact ⟨parts, mapM_eq_ok_of_forall₂ (hall.imp fun g part hg => build_eq_iff.2 hg), rfl⟩

/-- Content is refused like the first of its segments that is refused. -/
theorem content_eq_error {cursor stop : Nat} {ns : List Markup.Node} {e : Error} :
    s.content cursor stop ns = .error e
      ↔ Reaches (fun g => ∃ part, s.Becomes g (.ok part)) (fun g => s.Becomes g (.error e))
        (segments cursor stop ns) := by
  rw [content_eq, bind_pure_eq_error, ← refusal?_eq_some, refusal?_mapM,
    findSome?_eq_some_iff_reaches]
  apply reaches_congr
  · intro g _
    simp only [refusal?_eq_none, build_eq_iff]
  · intro g _
    rw [refusal?_eq_some, build_eq_iff]

end Source

/-- The content of every document and element of a tree in order is tiled by
its segments: stretches of text, and each child that interrupts text once
and in order. It is built segment by segment. A stretch of text that is not
blank becomes one node between those of its neighbours, and an element
becomes one node around its own content, unless a segment is refused, and
then the content is refused like the first such segment. -/
theorem content_tiled {s : Source} {root : Markup.Node} (h : ∀ n ∈ walk [root], n.Laid)
    {n : Markup.Node} (hn : n ∈ walk [root]) {a b : Nat} (hspan : contentSpan? n = some (a, b)) :
    a ≤ b ∧ Tiles a b (segments a b n.children)
    ∧ (segments a b n.children).filter Segment.isChild
      = (n.children.filter Source.interrupts).map Segment.ofChild
    ∧ (∀ nodes, s.content a b n.children = .ok nodes ↔ ∃ parts,
      List.Forall₂ (fun g part => s.Becomes g (.ok part)) (segments a b n.children) parts
        ∧ nodes = parts.flatten)
    ∧ (∀ e, s.content a b n.children = .error e
      ↔ Reaches (fun g => ∃ part, s.Becomes g (.ok part)) (fun g => s.Becomes g (.error e))
        (segments a b n.children))
    ∧ (n.kind = .element → s.element n = (do
      let inner ← s.content a b n.children
      let attributes ← s.attributes n.openingTag.children
      return Source.assemble (s.tagName n.openingTag) attributes inner
        (Place.ofOffset s.text n.start).line)) := by
  obtain ⟨hle, hinside⟩ := inside_content (h n hn) hspan
  exact ⟨hle, tiles_segments hle hinside (h n hn).apart, filter_isChild_segments a b n.children,
    fun _ => Source.content_eq_ok, fun _ => Source.content_eq_error,
    fun hkind => Source.element_eq hkind hspan⟩

/-- Text around an element: three segments from tag to tag. -/
theorem content_tiled_paragraph :
    let bold : Markup.Node := ⟨.element, 4, 12, false,
      [⟨.startTag, 4, 7, false, [⟨.tagName, 5, 6, false, []⟩]⟩, ⟨.text, 7, 8, false, []⟩,
        ⟨.endTag, 8, 12, false, [⟨.tagName, 10, 11, false, []⟩]⟩]⟩
    let paragraph : Markup.Node := ⟨.element, 0, 17, false,
      [⟨.startTag, 0, 3, false, [⟨.tagName, 1, 2, false, []⟩]⟩, ⟨.text, 3, 4, false, []⟩, bold,
        ⟨.text, 12, 13, false, []⟩, ⟨.endTag, 13, 17, false, [⟨.tagName, 15, 16, false, []⟩]⟩]⟩
    Markup.parse (mask (Text.ofString "<p>a<b>c</b>d</p>")) = ⟨.document, 0, 17, false, [paragraph]⟩
      ∧ Tiles 3 13 [.text 3 4, .element bold, .text 12 13] := by
  intro bold paragraph
  have hparse : Markup.parse (mask (Text.ofString "<p>a<b>c</b>d</p>"))
      = ⟨.document, 0, 17, false, [paragraph]⟩ := by cbv
  have hlaid : ∀ n ∈ walk [⟨.document, 0, 17, false, [paragraph]⟩], n.Laid := by
    rw [← hparse]
    exact Markup.laid_parse _
  have hmem : paragraph ∈ walk [⟨.document, 0, 17, false, [paragraph]⟩] :=
    Markup.Node.mem_walk_of_mem_children (Markup.Node.mem_walk_of_mem (List.mem_singleton.2 rfl))
  have hspan : contentSpan? paragraph = some (3, 13) := rfl
  have hsegments : segments 3 13 paragraph.children = [.text 3 4, .element bold, .text 12 13] := rfl
  obtain ⟨-, htiles, -⟩ := content_tiled (s := ⟨Text.ofString "<p>a<b>c</b>d</p>", []⟩) hlaid hmem hspan
  rw [hsegments] at htiles
  exact ⟨hparse, htiles⟩

end KeyHarvest.Template
