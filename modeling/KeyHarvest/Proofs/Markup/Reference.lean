/-
A text as the parts that its references cut it into. A part is a code point
that stands for itself, or a reference with what it stands for
(`Charref.Part`). Of a name that is not known as a whole only the known
beginning belongs to the reference; what is left of it, like a name that is
not known at all, is plain text.

What is written in the parts is the text (`flatMap_written_of_parts`), and
what they stand for is the text with its references replaced
(`decode_eq_parts`).
-/
import KeyHarvest.Proofs.Markup.Charref

namespace KeyHarvest.Charref

-- ============================================================== parts

/-- A code point, or a reference with what it stands for. -/
inductive Part where
  | plain (c : CodePoint)
  | reference (written meaning : Text)
  deriving DecidableEq, Repr

namespace Part

/-- A part as it is written. -/
def written : Part → Text
  | plain c => [c]
  | reference written _ => written

/-- What a part stands for. -/
def meaning : Part → Text
  | plain c => [c]
  | reference _ meaning => meaning

end Part

/-- The known beginning of a name: what it stands for, and how long it
is. -/
def known? (name : Text) : Option (Text × Nat) :=
  match ofName? name with
  | some t => some (t, name.length)
  | none => longest? name (name.length - 1)

/-- The parts of a reference, by what is written behind its ampersand. -/
def referenceParts (written meaning : Text) : List Part :=
  if Text.starts '#' written then [.reference (CodePoint.ofChar '&' :: written) meaning]
  else
    match known? written with
    | some (t, n) =>
        .reference (CodePoint.ofChar '&' :: written.take n) t :: (written.drop n).map .plain
    | none => .plain (CodePoint.ofChar '&') :: written.map .plain

/-- The parts of a text. -/
def parts : Text → Except Oversized (List Part)
  | [] => .ok []
  | c :: cs =>
      if c = '&' then do
        match ← reference? cs with
        | none => return .plain c :: (← parts cs)
        | some (t, n) => return referenceParts (cs.take n) t ++ (← parts (cs.drop n))
      else do return .plain c :: (← parts cs)
termination_by t => t.length
decreasing_by all_goals (simp only [List.length_cons, List.length_drop]; omega)

-- ============================================================= reading

theorem flatMap_written_plain (t : Text) : (t.map Part.plain).flatMap Part.written = t := by
  induction t with
  | nil => rfl
  | cons c t ih => exact congrArg (c :: ·) ih

theorem flatMap_meaning_plain (t : Text) : (t.map Part.plain).flatMap Part.meaning = t := by
  induction t with
  | nil => rfl
  | cons c t ih => exact congrArg (c :: ·) ih

/-- A name stands for what its known beginning stands for, and what is left
of it. -/
theorem ofName_eq (name : Text) :
    ofName name = match known? name with
      | some (t, n) => t ++ name.drop n
      | none => CodePoint.ofChar '&' :: name := by
  unfold ofName known?
  cases ofName? name with
  | some t => simp
  | none => rfl

/-- What a reference stands for, and how it begins. -/
theorem reference?_eq_some {t u : Text} {n : Nat} (h : reference? t = .ok (some (u, n))) :
    Text.starts '#' (t.take n) = true ∨ Text.starts '#' (t.take n) = false ∧ u = ofName (t.take n) := by
  unfold reference? at h
  split at h
  · next hs =>
      obtain ⟨cs, rfl⟩ := starts_eq_true.1 hs
      -- a number takes the sign in front of it along
      have hsign : ∀ run k, Text.starts '#'
          ((CodePoint.ofChar '#' :: cs).take (closed (run + k + 1) (CodePoint.ofChar '#' :: cs))) = true := by
        intro run k
        unfold closed
        split
        · rfl
        · rfl
      dsimp only at h
      split at h
      · split at h
        · cases h
          exact .inl (hsign _ 0)
        · cases h
      · split at h
        · cases h
          exact .inl (hsign _ 1)
        · cases h
  · next hs =>
      dsimp only at h
      split at h
      · cases h
      · next hrun =>
          cases h
          refine .inr ⟨?_, rfl⟩
          cases t with
          | nil => exact absurd rfl hrun
          | cons c cs =>
              have hc : c ≠ '#' := fun hc => hs (decide_eq_true hc)
              generalize closed _ _ = n
              cases n with
              | zero => rfl
              | succ n => exact decide_eq_false hc

/-- The parts of a reference are written as the reference is. -/
theorem flatMap_written_referenceParts (written meaning : Text) :
    (referenceParts written meaning).flatMap Part.written = CodePoint.ofChar '&' :: written := by
  unfold referenceParts
  split
  · rw [List.flatMap_singleton]
    rfl
  · split
    · next t n h =>
        rw [List.flatMap_cons, flatMap_written_plain]
        show CodePoint.ofChar '&' :: (written.take n ++ written.drop n) = _
        rw [List.take_append_drop]
    · rw [List.flatMap_cons, flatMap_written_plain]
      rfl

/-- The parts of a reference mean what the reference stands for. -/
theorem flatMap_meaning_referenceParts {t u : Text} {n : Nat}
    (h : reference? t = .ok (some (u, n))) :
    (referenceParts (t.take n) u).flatMap Part.meaning = u := by
  unfold referenceParts
  rcases reference?_eq_some h with hs | ⟨hs, rfl⟩
  · rw [if_pos hs, List.flatMap_singleton]
    rfl
  · rw [if_neg (by rw [hs]; exact Bool.false_ne_true), ofName_eq]
    split
    · rw [List.flatMap_cons, flatMap_meaning_plain]
      rfl
    · rw [List.flatMap_cons, flatMap_meaning_plain]
      rfl

/-- The parts of a text, read as they are written, are the text. -/
theorem flatMap_written_of_parts {t : Text} {ps : List Part} (h : parts t = .ok ps) :
    ps.flatMap Part.written = t := by
  fun_induction parts t generalizing ps with
  | case1 =>
      cases h
      rfl
  | case2 cs ih ihdrop =>
      obtain ⟨o, ho, h⟩ := bind_eq_ok.1 h
      cases o with
      | none =>
          obtain ⟨rest, hrest, h⟩ := bind_eq_ok.1 h
          cases h
          rw [List.flatMap_cons, ih hrest]
          rfl
      | some found =>
          obtain ⟨u, n⟩ := found
          obtain ⟨rest, hrest, h⟩ := bind_eq_ok.1 h
          cases h
          rw [List.flatMap_append, flatMap_written_referenceParts, ihdrop n hrest,
            List.cons_append, List.take_append_drop]
  | case3 c cs hc ih =>
      obtain ⟨rest, hrest, h⟩ := bind_eq_ok.1 h
      cases h
      rw [List.flatMap_cons, ih hrest]
      rfl

/-- Replacing the references of a text is reading what its parts stand
for. -/
theorem decode_eq_parts (t : Text) :
    decode t = (parts t).map fun ps => ps.flatMap Part.meaning := by
  fun_induction parts t with
  | case1 => rw [decode]; rfl
  | case2 cs ih ihdrop =>
      rw [decode, if_pos rfl]
      cases ho : reference? cs with
      | error e => rfl
      | ok o =>
          cases o with
          | none =>
              show (decode cs >>= fun v => pure (_ :: v)) = _
              rw [ih]
              cases parts cs <;> rfl
          | some found =>
              obtain ⟨u, n⟩ := found
              show (decode (cs.drop n) >>= fun v => pure (u ++ v))
                = (parts (cs.drop n) >>= fun rest =>
                    pure (referenceParts (cs.take n) u ++ rest)).map _
              rw [ihdrop n]
              cases parts (cs.drop n) with
              | error e => rfl
              | ok rest =>
                  show Except.ok (u ++ rest.flatMap Part.meaning)
                    = .ok ((referenceParts (cs.take n) u ++ rest).flatMap Part.meaning)
                  rw [List.flatMap_append, flatMap_meaning_referenceParts ho]
  | case3 c cs hc ih =>
      rw [decode, if_neg hc, ih]
      cases parts cs <;> rfl

/-- A text whose references can be replaced is cut into parts. -/
theorem exists_parts_of_decode {t value : Text} (h : decode t = .ok value) :
    ∃ ps, parts t = .ok ps ∧ ps.flatMap Part.written = t ∧ ps.flatMap Part.meaning = value := by
  rw [decode_eq_parts] at h
  cases hps : parts t with
  | error e =>
      rw [hps] at h
      cases h
  | ok ps =>
      rw [hps] at h
      cases h
      exact ⟨ps, rfl, flatMap_written_of_parts hps, rfl⟩

theorem not_mem_map_plain {written meaning t : Text} :
    Part.reference written meaning ∉ t.map Part.plain := by
  intro h
  obtain ⟨c, -, hc⟩ := List.mem_map.1 h
  cases hc

/-- Only what begins with an ampersand is written for a reference. -/
theorem written_of_mem_referenceParts {t u written meaning : Text}
    (h : .reference written meaning ∈ referenceParts t u) :
    ∃ name, written = CodePoint.ofChar '&' :: name := by
  unfold referenceParts at h
  split at h
  · cases List.mem_singleton.1 h
    exact ⟨_, rfl⟩
  · split at h
    · rcases List.mem_cons.1 h with h | h
      · cases h
        exact ⟨_, rfl⟩
      · exact absurd h not_mem_map_plain
    · rcases List.mem_cons.1 h with h | h
      · cases h
      · exact absurd h not_mem_map_plain

/-- Every reference begins with an ampersand. -/
theorem written_of_mem_parts {t : Text} {ps : List Part} (h : parts t = .ok ps)
    {written meaning : Text} (hp : .reference written meaning ∈ ps) :
    ∃ name, written = CodePoint.ofChar '&' :: name := by
  fun_induction parts t generalizing ps with
  | case1 =>
      cases h
      cases hp
  | case2 cs ih ihdrop =>
      obtain ⟨o, ho, h⟩ := bind_eq_ok.1 h
      cases o with
      | none =>
          obtain ⟨rest, hrest, h⟩ := bind_eq_ok.1 h
          cases h
          rcases List.mem_cons.1 hp with hp | hp
          · cases hp
          · exact ih hrest hp
      | some found =>
          obtain ⟨u, n⟩ := found
          obtain ⟨rest, hrest, h⟩ := bind_eq_ok.1 h
          cases h
          rcases List.mem_append.1 hp with hp | hp
          · exact written_of_mem_referenceParts hp
          · exact ihdrop n hrest hp
  | case3 c cs hc ih =>
      obtain ⟨rest, hrest, h⟩ := bind_eq_ok.1 h
      cases h
      rcases List.mem_cons.1 hp with hp | hp
      · cases hp
      · exact ih hrest hp

end KeyHarvest.Charref
