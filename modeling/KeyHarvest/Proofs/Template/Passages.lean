/-
The passages of a template: the stretches of text and the attributes that
are read one by one when its nodes are built. Their order is that of the
building, the content of an element before the attributes of its tag, and
the first passage that is refused decides about the whole template
(`refusal?_content`).

From this follows which templates hold a numeral that is too long.
`Source.Oversteps` says when one does, in terms of its passages, and
`parse_eq_oversized` that such a template is refused for the numeral,
whatever else may be wrong with it further on.
-/
import KeyHarvest.Proofs.Expr.Oversized
import KeyHarvest.Proofs.Markup.Charref
import KeyHarvest.Template.Build

namespace KeyHarvest.Template

open Markup (Kind)

-- =========================================================== passages

/-- What is read by itself: a stretch of text, or an attribute. -/
inductive Passage where
  | stretch (raw : Text)
  | binding (node : Markup.Node)

namespace Source

variable (s : Source)

/-- What an attribute is refused with: the references of its value first,
then its expression. -/
def attributeRefusal? (n : Markup.Node) : Option Error :=
  refusal? (do
    let parts ← s.attributeParts n
    s.classify n parts.1 parts.2)

/-- What a passage is refused with. -/
def refusalOf? : Passage → Option Error
  | .stretch raw => refusal? (s.textNode? raw)
  | .binding node => s.attributeRefusal? node

/-- The attributes among the nodes of a tag. -/
def attributePassages (ns : List Markup.Node) : List Passage :=
  (ns.filter (·.kind = .attribute)).map .binding

mutual

/-- The passages of an element. -/
def elementPassages (s : Source) : Markup.Node → List Passage
  | ⟨_, start, stop, _, children⟩ =>
      let tag := children.headD (.leaf .startTag start start)
      let closer := children.find? (·.kind = .endTag)
      (if tag.kind = .selfClosingTag then []
        else contentPassages s tag.stop ((closer.map (·.start)).getD stop) children)
        ++ attributePassages tag.children

/-- The passages of the children of a tag or document. -/
def contentPassages (s : Source) (cursor stop : Nat) : List Markup.Node → List Passage
  | [] => [.stretch (Text.slice s.text cursor stop)]
  | n :: ns =>
      if n.kind = .element then
        .stretch (Text.slice s.text cursor n.start)
          :: (elementPassages s n ++ contentPassages s n.stop stop ns)
      else if isSkipped n.kind then
        .stretch (Text.slice s.text cursor n.start) :: contentPassages s n.stop stop ns
      else contentPassages s cursor stop ns

end

theorem refusal?_attributes (ns : List Markup.Node) :
    refusal? (s.attributes ns) = (attributePassages ns).findSome? s.refusalOf? := by
  induction ns with
  | nil => rfl
  | cons n ns ih =>
      rw [attributes, attributePassages]
      by_cases hn : n.kind = .attribute
      · rw [if_pos hn, List.filter_cons_of_pos (by simpa using hn), List.map_cons,
          findSome?_cons_or]
        show refusal? (s.attributeParts n >>= fun parts => _)
          = (refusal? (s.attributeParts n >>= fun parts => _)).or _
        cases s.attributeParts n with
        | error e => rfl
        | ok parts =>
            show refusal? (s.classify n parts.1 parts.2 >>= fun first => _) = _
            rw [refusal?_bind fun first => refusal?_bind_pure _ _, ih]
            rfl
      · rw [if_neg hn, List.filter_cons_of_neg (by simpa using hn), ih]
        rfl

mutual

/-- The content of an element is read before its attributes. -/
theorem refusal?_element : ∀ n : Markup.Node,
    refusal? (s.element n) = (s.elementPassages n).findSome? s.refusalOf?
  | ⟨_, start, stop, _, children⟩ => by
      rw [element, elementPassages, List.findSome?_append, ← refusal?_attributes]
      dsimp only
      split
      · show refusal? (s.attributes _ >>= fun a => pure _) = _
        rw [refusal?_bind_pure]
        rfl
      · rw [refusal?_bind fun inner => refusal?_bind_pure _ _, refusal?_content]

/-- Content is read from left to right. -/
theorem refusal?_content (cursor stop : Nat) : ∀ ns : List Markup.Node,
    refusal? (s.content cursor stop ns)
      = (s.contentPassages cursor stop ns).findSome? s.refusalOf?
  | [] => by
      rw [content, contentPassages, refusal?_bind_pure, findSome?_cons_or, List.findSome?_nil,
        Option.or_none]
      rfl
  | n :: ns => by
      rw [content, contentPassages]
      split
      · rw [refusal?_bind fun before => refusal?_bind fun e => refusal?_bind_pure _ _,
          refusal?_element, refusal?_content, findSome?_cons_or, List.findSome?_append]
        rfl
      · split
        · rw [refusal?_bind fun before => refusal?_bind_pure _ _, refusal?_content,
            findSome?_cons_or]
          rfl
        · exact refusal?_content cursor stop ns

end

end Source

-- ====================================================== long numerals

/-- A value that oversteps by its own numerals or, once its references are
replaced, by what it is then read as. -/
def OverstepsAs (P : Text → Prop) (raw : Text) : Prop :=
  Charref.HoldsLong raw ∨ ∃ value, Charref.decode raw = .ok value ∧ P value

/-- What an attribute is by its name decides how its value is read; only
bindings and interpolations are. -/
def Role.Oversteps (role : Role) (value : Text) : Prop :=
  match role with
  | .twoWay _ | .input _ => Expr.Overlong 0 value
  | .other => Expr.OverlongBetween value
  | .directive _ | .output _ | .reference _ | .variable _ => False

namespace Source

variable (s : Source)

def partOf (n : Markup.Node) (kind : Kind) : Text := ((n.child? kind).map s.textOf).getD []

/-- A passage with a numeral that is too long. -/
def OverstepsAt : Passage → Prop
  | .stretch raw => Text.isBlank raw = false ∧ OverstepsAs Expr.OverlongBetween raw
  | .binding node =>
      OverstepsAs (Role.ofName (s.partOf node .attributeName)).Oversteps
        (s.partOf node .attributeValue)

/-- The passages of the whole template. -/
def passages : List Passage :=
  s.contentPassages 0 (Markup.parse (mask s.text)).stop (Markup.parse (mask s.text)).children

/-- A template whose markup is accepted, and in which a passage with a
numeral that is too long is reached past passages that can be read. -/
def Oversteps : Prop :=
  s.check (Markup.parse (mask s.text)) = .ok ()
    ∧ Reaches (fun p => s.refusalOf? p = none) s.OverstepsAt s.passages

variable {s}

/-- A value is refused for a numeral in a reference, or in what is read
once references are replaced. -/
theorem decode_bind_eq_oversized {α : Type} {f : Text → Except Error α} {P : Text → Prop}
    {raw : Text} (h : ∀ value, (∃ k, f value = .error (.oversized k)) ↔ P value) :
    (∃ k, (decode raw >>= f) = .error (.oversized k)) ↔ OverstepsAs P raw := by
  unfold OverstepsAs
  rw [← Charref.decode_eq_error, decode]
  cases Charref.decode raw with
  | error e => simp [Except.mapError, bind, Except.bind]
  | ok value => simpa [Except.mapError, bind, Except.bind] using h value

theorem textNode?_eq_oversized {raw : Text} :
    (∃ k, s.textNode? raw = .error (.oversized k)) ↔ s.OverstepsAt (.stretch raw) := by
  unfold textNode? OverstepsAt
  by_cases hb : Text.isBlank raw = true
  · simp [hb]
  · rw [if_neg hb, decode_bind_eq_oversized (P := Expr.OverlongBetween)]
    · simp [hb]
    · intro value
      rw [← Expr.parseInterpolated_eq_oversized]
      cases hv : Expr.parseInterpolated value with
      | ok o => cases o <;> simp
      | error e => cases e <;> simp

/-- Turning an error of an expression into one of the template keeps
numerals. -/
theorem mapError_eq_oversized {α : Type} {x : Except ExprError α} {n : Markup.Node}
    {name value : Text} :
    (∃ k, refusal? (x.mapError (s.refuseBinding n name value)) = some (.oversized k))
      ↔ ∃ k, x = .error (.oversized k) := by
  cases x with
  | ok a => simp [Except.mapError]
  | error e => cases e <;> simp [Except.mapError, refuseBinding, refuse]

theorem bound_eq_oversized {n : Markup.Node} {name value : Text} :
    (∃ k, refusal? (s.bound n name value) = some (.oversized k)) ↔ Expr.Overlong 0 value := by
  rw [bound]
  simp only [refusal?_bind_pure]
  rw [mapError_eq_oversized, Expr.parseBinding_eq_oversized]

/-- An attribute with its value decoded is refused for a numeral exactly
when its role has the value read and the value has such a numeral. -/
theorem classify_eq_oversized {n : Markup.Node} {name value : Text} :
    (∃ k, s.classify n name value = .error (.oversized k))
      ↔ (Role.ofName name).Oversteps value := by
  unfold classify
  simp only [← refusal?_eq_some]
  cases Role.ofName name with
  | twoWay x =>
      simp only [refusal?_bind_pure]
      exact bound_eq_oversized
  | input x =>
      simp only [refusal?_bind_pure]
      exact bound_eq_oversized
  | other =>
      rw [refusal?_bind_of_ok fun o => by cases o <;> rfl]
      rw [mapError_eq_oversized, Expr.parseInterpolated_eq_oversized]
      rfl
  | _ => simp [Role.Oversteps]

/-- A passage is refused for a numeral exactly when it has one that is too
long. -/
theorem refusalOf?_eq_oversized {p : Passage} :
    (∃ k, s.refusalOf? p = some (.oversized k)) ↔ s.OverstepsAt p := by
  cases p with
  | stretch raw =>
      simp only [refusalOf?, refusal?_eq_some]
      exact textNode?_eq_oversized
  | binding node =>
      have hparts : (s.attributeParts node >>= fun parts => s.classify node parts.1 parts.2)
          = decode (s.partOf node .attributeValue) >>= fun value =>
            s.classify node (s.partOf node .attributeName) value := by
        show ((decode (s.partOf node .attributeValue) >>= fun value => pure (_, value)) >>= _) = _
        cases decode (s.partOf node .attributeValue) <;> rfl
      simp only [refusalOf?, attributeRefusal?, refusal?_eq_some]
      rw [hparts]
      exact decode_bind_eq_oversized fun value => classify_eq_oversized

/-- Markup that is not accepted is malformed. -/
theorem check_ne_oversized {root : Markup.Node} {k : Nat} :
    s.check root ≠ .error (.oversized k) := by
  unfold check refuse
  split
  · simp
  · split
    · split
      · simp
      · split <;> simp
    · simp

end Source

/-- A template is refused for a numeral exactly when it oversteps. -/
theorem parse_eq_oversized {path text : Text} :
    (∃ k, parse path text = .error (.oversized k)) ↔ Source.Oversteps ⟨text, path⟩ := by
  unfold parse Source.Oversteps
  dsimp only
  cases hc : Source.check ⟨text, path⟩ (Markup.parse (mask text)) with
  | error e =>
      cases e with
      | oversized k => exact absurd hc Source.check_ne_oversized
      | malformed => simp [bind, Except.bind]
  | ok =>
      show (∃ k, Source.content _ _ _ _ = _) ↔ _
      simp only [← refusal?_eq_some, Source.refusal?_content, true_and]
      rw [exists_findSome?_iff_reaches]
      exact reaches_congr (fun _ _ => Iff.rfl) fun _ _ => Source.refusalOf?_eq_oversized

end KeyHarvest.Template
