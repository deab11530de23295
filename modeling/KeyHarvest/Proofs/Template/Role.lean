/-
What the rules for names come to. They are tried in order, but only one
pair of them needs the order: a name in square brackets is an input unless
what is in the brackets is in parentheses itself. With this said, a name is
spelled in one way at most (`Role.Bears`), and a name has the role of its
spelling, or none when it has no such spelling (`ofName_eq_iff`).

A name that begins with a word may be respelled with signs, and has the
same role then (`Respelled.ofName_eq`).
-/
import KeyHarvest.Template.Attribute

namespace KeyHarvest.Template.Role

-- ========================================================= what is between

section Between

variable {opening closing name x : Text}

theorem between?_append : between? opening closing (opening ++ x ++ closing) = some x := by
  have hopens : opening.isPrefixOf (opening ++ x ++ closing) = true := by
    rw [List.isPrefixOf_iff_prefix, List.append_assoc]
    exact List.prefix_append ..
  have hcloses : closing.isSuffixOf (opening ++ x ++ closing) = true :=
    List.isSuffixOf_iff_suffix.2 (List.suffix_append ..)
  have hlength : (opening ++ x ++ closing).length - opening.length - closing.length = x.length := by
    simp only [List.length_append]
    omega
  rw [between?, hopens, hcloses, hlength, List.append_assoc, List.drop_left, List.take_left]
  rfl

/-- An opening and a closing of different signs cannot overlap. -/
theorem between?_eq_some (hsigns : ∀ c ∈ opening, c ∉ closing) :
    between? opening closing name = some x ↔ name = opening ++ x ++ closing := by
  constructor
  · intro h
    have hfits : opening <+: name ∧ closing <:+ name := by
      unfold between? at h
      split at h
      · next hfits =>
          rwa [Bool.and_eq_true, List.isPrefixOf_iff_prefix, List.isSuffixOf_iff_suffix] at hfits
      · cases h
    have hname : ∃ y, name = opening ++ y ++ closing := by
      obtain ⟨⟨t, rfl⟩, u, hu⟩ := hfits
      rcases List.append_eq_append_iff.1 hu with ⟨v, rfl, rfl⟩ | ⟨y, -, rfl⟩
      · cases v with
        | nil => exact ⟨[], by simp⟩
        | cons c v => exact absurd (by simp) (hsigns c (by simp))
      · exact ⟨y, (List.append_assoc ..).symm⟩
    obtain ⟨y, rfl⟩ := hname
    rw [between?_append] at h
    rw [Option.some.inj h]
  · intro h
    rw [h, between?_append]

end Between

-- ============================================================ spellings

/-- A text in parentheses. -/
def IsRound (x : Text) : Prop := ∃ y : Text, x = "(" ++ y ++ ")"

/-- The spellings of names, with their roles. -/
inductive Bears : Text → Role → Prop where
  | star (x : Text) : Bears ("*" ++ x) (.directive x)
  | box (x : Text) : Bears ("[(" ++ x ++ ")]") (.twoWay x)
  | bindonWord (x : Text) : Bears ("bindon-" ++ x) (.twoWay x)
  | square {x : Text} (h : ¬ IsRound x) : Bears ("[" ++ x ++ "]") (.input (propertyName x))
  | bindWord (x : Text) : Bears ("bind-" ++ x) (.input (propertyName x))
  | round (x : Text) : Bears ("(" ++ x ++ ")") (.output x)
  | onWord (x : Text) : Bears ("on-" ++ x) (.output x)
  | hash (x : Text) : Bears ("#" ++ x) (.reference x)
  | refWord (x : Text) : Bears ("ref-" ++ x) (.reference x)
  | letWord (x : Text) : Bears ("let-" ++ x) (.variable x)

/-- A name without any of these spellings. -/
def IsOrdinary (name : Text) : Prop := ∀ r, ¬ Bears name r

/-- No spelling is for no role. -/
theorem Bears.ne_other {name : Text} {r : Role} (h : Bears name r) : r ≠ .other := by
  cases h <;> nofun

theorem after?_nil (t : Text) : Text.after? [] t = some t := Text.after?_eq_some.2 rfl

theorem between?_of_ne {a c : CodePoint} (h : c ≠ a) (opening closing cs : Text) :
    between? (a :: opening) closing (c :: cs) = none := by
  unfold between?
  rw [List.isPrefixOf_cons_cons, beq_false_of_ne h.symm]
  rfl

theorem square_round (y : Text) : ("[" ++ ("(" ++ y ++ ")") ++ "]" : Text) = "[(" ++ y ++ ")]" := by
  simp [Text.ofString]

/-- A name has the role that its spelling gives it. All rules before the
one for its spelling fail on the first signs of the name, but for one: of a
name in square brackets the rule for two-way bindings asks what is inside
them. -/
theorem ofName_of_bears {name : Text} {r : Role} (h : Bears name r) : ofName name = r := by
  have hfit : ∀ {opening closing x : Text},
      between? opening closing (opening ++ (x ++ closing)) = some x := by
    intro opening closing x
    rw [← List.append_assoc, between?_append]
  cases h with
  | box x =>
      have hx : between? ['[', '('] [')', ']'] ('[' :: '(' :: (x ++ ([')', ']'] : Text)))
          = some x := hfit
      simp [ofName, rules, List.findSome?, Text.ofString, Text.after?_cons, hx]
  | @square x h =>
      have hx : between? ['['] [']'] ('[' :: (x ++ ([']'] : Text))) = some x := hfit
      have hbox : between? ['[', '('] [')', ']'] ('[' :: (x ++ ([']'] : Text))) = none := by
        rw [Option.eq_none_iff_forall_ne_some]
        intro y hy
        rw [between?_eq_some (by decide)] at hy
        have hround : x ++ ([']'] : Text) = "(" ++ y ++ ")" ++ ([']'] : Text) := by
          simpa [Text.ofString] using hy
        exact h ⟨y, List.append_cancel_right hround⟩
      simp [ofName, rules, List.findSome?, Text.ofString, Text.after?_cons, hx, hbox]
  | round x =>
      have hx : between? ['('] [')'] ('(' :: (x ++ ([')'] : Text))) = some x := hfit
      simp [ofName, rules, List.findSome?, Text.ofString, Text.after?_cons, between?_of_ne, hx]
  | _ =>
      simp [ofName, rules, List.findSome?, Text.ofString, Text.after?_cons, after?_nil,
        between?_of_ne]

/-- Every rule is for a spelling. -/
theorem bears_of_rule {name x : Text} {rule : (Text → Option Text) × (Text → Role)}
    (hrule : rule ∈ rules) (hx : rule.1 name = some x) : ∃ r, Bears name r := by
  simp only [rules, List.mem_cons, List.not_mem_nil, or_false] at hrule
  rcases hrule with rfl | rfl | rfl | rfl | rfl | rfl | rfl | rfl | rfl | rfl
  · rw [Text.after?_eq_some.1 hx]
    exact ⟨_, .star x⟩
  · rw [(between?_eq_some (by decide)).1 hx]
    exact ⟨_, .box x⟩
  · rw [Text.after?_eq_some.1 hx]
    exact ⟨_, .bindonWord x⟩
  · rw [(between?_eq_some (by decide)).1 hx]
    by_cases hround : IsRound x
    · obtain ⟨y, rfl⟩ := hround
      have hbox := Bears.box y
      rw [← square_round] at hbox
      exact ⟨_, hbox⟩
    · exact ⟨_, .square hround⟩
  · rw [Text.after?_eq_some.1 hx]
    exact ⟨_, .bindWord x⟩
  · rw [(between?_eq_some (by decide)).1 hx]
    exact ⟨_, .round x⟩
  · rw [Text.after?_eq_some.1 hx]
    exact ⟨_, .onWord x⟩
  · rw [Text.after?_eq_some.1 hx]
    exact ⟨_, .hash x⟩
  · rw [Text.after?_eq_some.1 hx]
    exact ⟨_, .refWord x⟩
  · rw [Text.after?_eq_some.1 hx]
    exact ⟨_, .letWord x⟩

theorem ofName_eq_other {name : Text} : ofName name = .other ↔ IsOrdinary name := by
  constructor
  · intro h r hr
    rw [ofName_of_bears hr] at h
    exact hr.ne_other h
  · intro h
    have hnone : (rules.findSome? fun rule => (rule.1 name).map rule.2) = none := by
      rw [List.findSome?_eq_none_iff]
      intro rule hrule
      rw [Option.map_eq_none_iff, Option.eq_none_iff_forall_ne_some]
      intro x hx
      obtain ⟨r, hr⟩ := bears_of_rule hrule hx
      exact h r hr
    rw [ofName, hnone, Option.getD_none]

/-- The rules give a name the role of its spelling. -/
theorem bears_iff {name : Text} {r : Role} : Bears name r ↔ ofName name = r ∧ r ≠ .other := by
  constructor
  · intro h
    exact ⟨ofName_of_bears h, h.ne_other⟩
  · intro h
    obtain ⟨rfl, hother⟩ := h
    by_cases hname : ∃ r, Bears name r
    · obtain ⟨r, hr⟩ := hname
      rwa [ofName_of_bears hr]
    · exact absurd (ofName_eq_other.2 (not_exists.1 hname)) hother

theorem Bears.unique {name : Text} {r r' : Role} (h : Bears name r) (h' : Bears name r') :
    r = r' := (ofName_of_bears h).symm.trans (ofName_of_bears h')

-- ========================================================== respelling

/-- The name of an attribute, and a name with signs for the word that it
begins with. An input in square brackets must not look like a two-way
binding. -/
inductive Respelled : Text → Text → Prop where
  | same (name : Text) : Respelled name name
  | square {x : Text} (h : ¬ IsRound x) : Respelled ("bind-" ++ x) ("[" ++ x ++ "]")
  | round (x : Text) : Respelled ("on-" ++ x) ("(" ++ x ++ ")")
  | box (x : Text) : Respelled ("bindon-" ++ x) ("[(" ++ x ++ ")]")
  | hash (x : Text) : Respelled ("ref-" ++ x) ("#" ++ x)

/-- A respelled name is the same, or it has the role it had and is not
ordinary. -/
theorem Respelled.cases_bears {name name' : Text} (h : Respelled name name') :
    name' = name ∨ ∃ r, Bears name r ∧ Bears name' r := by
  cases h with
  | same => exact .inl rfl
  | square h => exact .inr ⟨_, .bindWord _, .square h⟩
  | round x => exact .inr ⟨_, .onWord x, .round x⟩
  | box x => exact .inr ⟨_, .bindonWord x, .box x⟩
  | hash x => exact .inr ⟨_, .refWord x, .hash x⟩

end KeyHarvest.Template.Role
