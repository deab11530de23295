/-
What a JSON value takes to be written. Escapes are written in ASCII and
everything else as it is, so rendering neither adds nor hides a surrogate:
the text of a value is scalar exactly when every text in the value is
(`scalar_render`).
-/
import KeyHarvest.Json.Value
import KeyHarvest.Proofs.Text.Scalar

namespace KeyHarvest.Json

open Text (Scalar)

-- ============================================================== texts

mutual

/-- The texts of a value: those it holds, and the names of its members. -/
def Value.texts : Value → List Text
  | .text t => [t]
  | .number _ => []
  | .list items => textsOf items
  | .object members => textsOfMembers members

/-- The texts of several values. -/
def textsOf : List Value → List Text
  | [] => []
  | v :: vs => v.texts ++ textsOf vs

/-- The texts of members with their names. -/
def textsOfMembers : List (Text × Value) → List Text
  | [] => []
  | (name, v) :: ms => name :: (v.texts ++ textsOfMembers ms)

end

/-- The texts of a list come value by value. -/
theorem textsOf_eq (vs : List Value) : textsOf vs = vs.flatMap Value.texts := by
  induction vs with
  | nil => rfl
  | cons v vs ih => rw [textsOf, ih, List.flatMap_cons]

-- ========================================================== rendering

/-- A code point is escaped in ASCII, or stands as it is. -/
theorem scalar_escaped (c : CodePoint) : Scalar (escaped c) ↔ c.isSurrogate = false := by
  have hlow : c.val < 0x20 → c.isSurrogate = false := by
    intro h
    simp only [CodePoint.isSurrogate, Bool.and_eq_false_iff, decide_eq_false_iff_not]
    omega
  unfold escaped
  split
  · next h => simp [h]
  split
  · next h => simp [h]
  split
  · next h => simp [h]
  split
  · next h => simp [h]
  split
  · next h => simp [h]
  split
  · next h => simp [hlow (by omega)]
  split
  · next h => simp [hlow (by omega)]
  split
  · next h => simp [hlow h, hexDigit]
  · simp

/-- A quoted text is scalar exactly when the text is. -/
theorem scalar_quote (t : Text) : Scalar (quote t) ↔ Scalar t := by
  have hbody : Scalar (t.flatMap escaped) ↔ Scalar t := by
    induction t with
    | nil => simp
    | cons c cs ih => rw [List.flatMap_cons, Text.scalar_append, scalar_escaped, ih, Text.scalar_cons]
  simp [quote, hbody]

mutual

/-- The text of a value is scalar when all texts in it are. -/
theorem scalar_render : ∀ v : Value, Scalar (render v) ↔ ∀ t ∈ v.texts, Scalar t
  | .text t => by simp [render, Value.texts, scalar_quote]
  | .number n => by simp [render, Value.texts]
  | .list items => by
      simp [render, Value.texts, Text.scalar_join, scalar_renderItems items]
  | .object members => by
      simp [render, Value.texts, Text.scalar_join, scalar_renderMembers members]

/-- The same of the items of a list. -/
theorem scalar_renderItems : ∀ vs : List Value,
    (∀ u ∈ renderItems vs, Scalar u) ↔ ∀ t ∈ textsOf vs, Scalar t
  | [] => by simp [renderItems, textsOf]
  | v :: vs => by
      rw [renderItems, textsOf, List.forall_mem_cons, List.forall_mem_append, scalar_render v,
        scalar_renderItems vs]

/-- The same of the members of an object. -/
theorem scalar_renderMembers : ∀ ms : List (Text × Value),
    (∀ u ∈ renderMembers ms, Scalar u) ↔ ∀ t ∈ textsOfMembers ms, Scalar t
  | [] => by simp [renderMembers, textsOfMembers]
  | (name, v) :: ms => by
      rw [renderMembers, textsOfMembers, List.forall_mem_cons, List.forall_mem_cons,
        List.forall_mem_append, Text.scalar_append, Text.scalar_append, scalar_quote, scalar_render v,
        scalar_renderMembers ms]
      simp [and_assoc]

end

end KeyHarvest.Json
