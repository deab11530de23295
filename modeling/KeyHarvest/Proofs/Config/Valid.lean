/-
Which values are settings. A mapping describes settings when its keys are
names of fields and every field that is there has a value that fits it; a
field that is left out has its default (`Describes`). Such a mapping is
accepted and gives these settings, and so is null (`IsSettings`).

# Two gaps

Two kinds of values fall through the checks. A value that holds nothing
is taken for no settings before anything is asked about it, also when it
is a truth value, a number, a text or a list (`HoldsNothing`). And keys
that are no fields are sorted and put into a message, which fails when one
of them is no text (`HasNamelessKey`). Every other value is either settings
or refused (`ofValue_exact`). A fault says what is wrong: a field is blamed
only if it is there and its value does not fit, and what keeps keys from
being named is one of them that is no text, or two without an order
(`Blames`).
-/
import KeyHarvest.Config.Load
import KeyHarvest.Proofs.Refusal

namespace KeyHarvest.Config

open Yaml (Value)

-- ============================================================ fields

/-- A value of a field of texts, and the texts it gives: a list of texts,
or one text alone. -/
inductive GivesTexts : Value → List Text → Prop where
  | one (t : Text) : GivesTexts (.text t) [t]
  | many (ts : List Text) : GivesTexts (.list (ts.map .text)) ts

/-- A value of a field with one text, which is not empty. -/
inductive GivesText : Value → Text → Prop where
  | text {t : Text} (h : t ≠ []) : GivesText (.text t) t

/-- What a field of a mapping is read as: its default when it is absent,
and else what its value gives. -/
def Supplies {α : Type} (Gives : Value → α → Prop) (entries : Entries) (name : Text)
    (default x : α) : Prop :=
  Value.lookup? name entries = none ∧ x = default
    ∨ ∃ v, Value.lookup? name entries = some v ∧ Gives v x

/-- A field that is there with a value that does not fit. -/
def Misfits {α : Type} (Gives : Value → α → Prop) (entries : Entries) (name : Text) : Prop :=
  ∃ v, Value.lookup? name entries = some v ∧ ∀ x, ¬ Gives v x

/-- A value has a text when it is one. -/
theorem text?_eq_some {v : Value} {t : Text} : v.text? = some t ↔ v = .text t := by
  cases v <;> simp [Value.text?]

/-- Values that are not all texts have one that is none. -/
theorem exists_of_mapM_eq_none {items : List Value} (h : items.mapM Value.text? = none) :
    ∃ v ∈ items, v.text? = none := by
  induction items with
  | nil => cases h
  | cons v items ih =>
      cases hv : v.text? with
      | none => exact ⟨v, List.mem_cons_self, hv⟩
      | some t =>
          cases hrest : items.mapM Value.text? with
          | none =>
              obtain ⟨w, hw, hnone⟩ := ih hrest
              exact ⟨w, List.mem_cons_of_mem v hw, hnone⟩
          | some ts =>
              rw [List.mapM_cons, hv, hrest] at h
              cases h

/-- Values are all texts when they are a list of texts. -/
theorem mapM_text?_eq_some {items : List Value} {ts : List Text} :
    items.mapM Value.text? = some ts ↔ items = ts.map .text := by
  induction items generalizing ts with
  | nil => cases ts <;> simp
  | cons v items ih =>
      rw [List.mapM_cons]
      simp only [Option.bind_eq_bind, Option.bind_eq_some_iff, ih, text?_eq_some, Option.pure_def,
        Option.some.injEq]
      constructor
      · intro h
        obtain ⟨t, rfl, us, rfl, rfl⟩ := h
        rfl
      · intro h
        cases ts with
        | nil => cases h
        | cons t ts =>
            obtain ⟨hv, hitems⟩ := List.cons.inj h
            exact ⟨t, hv, ts, hitems, rfl⟩

/-- The texts of a value are read as `GivesTexts` says. -/
theorem texts?_eq_some {v : Value} {ts : List Text} : v.texts? = some ts ↔ GivesTexts v ts := by
  constructor
  · intro h
    cases v with
    | text t =>
        cases h
        exact .one t
    | list items =>
        rw [Value.texts?, mapM_text?_eq_some] at h
        rw [h]
        exact .many ts
    | _ => cases h
  · intro h
    cases h with
    | one t => rfl
    | many ts => exact mapM_text?_eq_some.2 rfl

/-- A field with one text takes every text but the empty one. -/
theorem givesText_iff {v : Value} {t : Text} : GivesText v t ↔ v.text? = some t ∧ t ≠ [] := by
  rw [text?_eq_some]
  constructor
  · intro h
    cases h with
    | text ht => exact ⟨rfl, ht⟩
  · intro h
    obtain ⟨rfl, ht⟩ := h
    exact .text ht

section Fields

variable {entries : Entries} {name : Text}

/-- A field of texts is accepted with its texts, or with the default. -/
theorem textsField_eq_ok {default ts : List Text} :
    textsField entries name default = .ok ts ↔ Supplies GivesTexts entries name default ts := by
  unfold textsField Supplies
  simp only [← texts?_eq_some]
  cases Value.lookup? name entries with
  | none => simp [eq_comm]
  | some v => cases hv : v.texts? <;> simp [hv]

/-- A field of texts is refused, and blamed, only for a value that does not
fit. -/
theorem textsField_eq_error {default : List Text} {f : Fault} :
    textsField entries name default = .error f
      ↔ f = .notTexts name ∧ Misfits GivesTexts entries name := by
  unfold textsField Misfits
  simp only [← texts?_eq_some]
  cases Value.lookup? name entries with
  | none => simp
  | some v => cases hv : v.texts? <;> simp [hv, eq_comm]

/-- A field with one text is accepted with it, or with the default. -/
theorem textField_eq_ok {default t : Text} :
    textField entries name default = .ok t ↔ Supplies GivesText entries name default t := by
  unfold textField Supplies
  simp only [givesText_iff]
  cases Value.lookup? name entries with
  | none => simp [eq_comm]
  | some v =>
      cases hv : v.text? with
      | none => simp [hv]
      | some t' =>
          cases t' with
          | nil => simp [hv]
          | cons c cs =>
              have hne : c :: cs = t ↔ c :: cs = t ∧ t ≠ [] :=
                ⟨fun h => ⟨h, h ▸ List.cons_ne_nil c cs⟩, And.left⟩
              simpa [hv] using hne

/-- A field with one text is refused, and blamed, only for a value that does
not fit. -/
theorem textField_eq_error {default : Text} {f : Fault} :
    textField entries name default = .error f
      ↔ f = .notText name ∧ Misfits GivesText entries name := by
  unfold textField Misfits
  simp only [givesText_iff]
  cases Value.lookup? name entries with
  | none => simp
  | some v =>
      cases hv : v.text? with
      | none => simp [hv, eq_comm]
      | some t' => cases t' <;> simp [hv, eq_comm]

end Fields

-- ============================================================== keys

variable {entries : Entries}

/-- A key that is no field. -/
def IsStrange (k : Value) : Prop := ∀ name ∈ fieldNames, k ≠ .text name

/-- The strange keys are the keys of the mapping that name no field. -/
theorem mem_strangeKeys {k : Value} :
    k ∈ strangeKeys entries ↔ IsStrange k ∧ ∃ v, (k, v) ∈ entries := by
  have hfield : k.text?.any fieldNames.contains = true ↔ ∃ name ∈ fieldNames, k = .text name := by
    simp [Option.any_eq_true, text?_eq_some, and_comm]
  have hstrange : (!k.text?.any fieldNames.contains) = true ↔ IsStrange k := by
    rw [Bool.not_eq_true', Bool.eq_false_iff, Ne, hfield]
    simp [IsStrange]
  rw [strangeKeys, List.mem_filter, hstrange, and_comm]
  simp

/-- What keeps the keys of a mapping from being named: one that is no
text, or two without an order. -/
inductive Hinders (entries : Entries) : Hindrance → Prop where
  | noText {e : Value × Value} (he : e ∈ entries) (hname : ∀ t, e.1 ≠ .text t) :
      Hinders entries (.noText e.1.kind)
  | unordered {d e : Value × Value} {left right : Text} (hd : d ∈ entries) (he : e ∈ entries)
      (h : e.1.clash? d.1 = some (left, right)) : Hinders entries (.unordered left right)

/-- The first of several keys is one of them. -/
theorem first_mem (k : Value) (ks : List Value) : Value.first k ks ∈ k :: ks := by
  induction ks generalizing k with
  | nil => exact List.mem_cons_self
  | cons l ks ih =>
      have hrest : Value.first k (l :: ks) = Value.first (if l.isBelow k then l else k) ks := rfl
      rw [hrest]
      rcases List.mem_cons.1 (ih (if l.isBelow k then l else k)) with h | h
      · rw [h]
        split <;> simp
      · exact List.mem_cons_of_mem k (List.mem_cons_of_mem l h)

/-- Between a text and a key that is none there is no order. -/
theorem text?_eq_none_of_clash? {k l : Value} (h : l.clash? k = none) :
    k.text? = none ↔ l.text? = none := by
  cases k <;> cases l <;> simp_all [Value.clash?, Value.text?, Value.isNumber]

/-- Two keys without an order are found among all. -/
theorem exists_of_clashAmong? {ks : List Value} {left right : Text}
    (h : Value.clashAmong? ks = some (left, right)) :
    ∃ k ∈ ks, ∃ l ∈ ks, l.clash? k = some (left, right) := by
  induction ks with
  | nil => cases h
  | cons k ks ih =>
      rcases Option.or_eq_some_iff.1 h with h | ⟨-, h⟩
      · obtain ⟨l, hl, hclash⟩ := List.exists_of_findSome?_eq_some h
        exact ⟨k, List.mem_cons_self, l, List.mem_cons_of_mem k hl, hclash⟩
      · obtain ⟨k', hk', l, hl, hclash⟩ := ih h
        exact ⟨k', List.mem_cons_of_mem k hk', l, List.mem_cons_of_mem k hl, hclash⟩

/-- Keys that have an order are all texts, or none of them is. -/
theorem text?_eq_none_of_clashAmong? {k : Value} {ks : List Value}
    (h : Value.clashAmong? (k :: ks) = none) :
    ∀ l ∈ k :: ks, k.text? = none ↔ l.text? = none := by
  obtain ⟨hfirst, -⟩ := Option.or_eq_none_iff.1 h
  refine List.forall_mem_cons.2 ⟨Iff.rfl, fun l hl => ?_⟩
  exact text?_eq_none_of_clash? (List.findSome?_eq_none_iff.1 hfirst l hl)

/-- Texts have an order. -/
theorem clashAmong?_map_text (names : List Text) :
    Value.clashAmong? (names.map Value.text) = none := by
  induction names with
  | nil => rfl
  | cons name names ih =>
      have hfirst : (names.map Value.text).findSome? (fun l => l.clash? (.text name)) = none := by
        simp [List.findSome?_eq_none_iff, Value.clash?]
      rw [List.map_cons, Value.clashAmong?, hfirst]
      exact ih

/-- A strange key is the key of an entry. -/
theorem exists_entry_of_strange {k : Value} (hk : k ∈ strangeKeys entries) :
    ∃ e ∈ entries, e.1 = k := by
  obtain ⟨-, v, hmem⟩ := mem_strangeKeys.1 hk
  exact ⟨(k, v), hmem, rfl⟩

/-- Two strange keys without an order keep the keys from being named. -/
theorem hinders_of_clashAmong? {left right : Text}
    (h : Value.clashAmong? (strangeKeys entries) = some (left, right)) :
    Hinders entries (.unordered left right) := by
  obtain ⟨k, hk, l, hl, hclash⟩ := exists_of_clashAmong? h
  obtain ⟨d, hd, rfl⟩ := exists_entry_of_strange hk
  obtain ⟨e, he, rfl⟩ := exists_entry_of_strange hl
  exact .unordered hd he hclash

/-- Where the strange keys have an order and one of them is no text, the
first is none either, and keeps them from being named. -/
theorem hinders_first {k l : Value} {ks : List Value} (hkeys : strangeKeys entries = k :: ks)
    (h : Value.clashAmong? (k :: ks) = none) (hl : l ∈ k :: ks) (hnone : l.text? = none) :
    Hinders entries (.noText (Value.first k ks).kind) := by
  obtain ⟨e, he, hfirst⟩ := exists_entry_of_strange (hkeys ▸ first_mem k ks)
  -- keys that can be compared are of one kind, so none of them has a text
  have hall := text?_eq_none_of_clashAmong? h
  have hlost := (hall _ (first_mem k ks)).1 ((hall l hl).2 hnone)
  rw [← hfirst] at hlost ⊢
  refine .noText he fun t ht => ?_
  rw [ht] at hlost
  cases hlost

/-- What the check of the keys comes to: there are no strange ones, or one
of them is no text and keeps them from being named, or all of them are
texts. -/
theorem checkKeys_cases (entries : Entries) :
    strangeKeys entries = [] ∧ checkKeys entries = .ok ()
    ∨ (∃ k ∈ strangeKeys entries, k.text? = none)
      ∧ (∃ x, checkKeys entries = .error (.unnamedKey x) ∧ Hinders entries x)
    ∨ strangeKeys entries ≠ [] ∧ (∀ k ∈ strangeKeys entries, k.text? ≠ none)
      ∧ checkKeys entries
        = .error (.unknownKeys (((strangeKeys entries).filterMap Value.text?).mergeSort Text.le)) := by
  unfold checkKeys
  cases hkeys : strangeKeys entries with
  | nil => exact .inl ⟨rfl, rfl⟩
  | cons k ks =>
      right
      dsimp only
      cases hnames : (k :: ks).mapM Value.text? with
      -- all keys have a name: they are sorted and listed
      | some names =>
          right
          have htexts : k :: ks = names.map .text := mapM_text?_eq_some.1 hnames
          have hclash : Value.clashAmong? (k :: ks) = none := by
            rw [htexts]
            exact clashAmong?_map_text names
          have hfilter : (k :: ks).filterMap Value.text? = names := by
            rw [htexts, List.filterMap_map]
            exact List.filterMap_some
          refine ⟨List.cons_ne_nil k ks, ?_, ?_⟩
          · intro l hl
            rw [htexts] at hl
            obtain ⟨t, -, rfl⟩ := List.mem_map.1 hl
            nofun
          · rw [hclash, hfilter]
      -- a key without a name: two keys that cannot be compared, or the smallest key has none
      | none =>
          left
          obtain ⟨l, hl, hnone⟩ := exists_of_mapM_eq_none hnames
          refine ⟨⟨l, hl, hnone⟩, ?_⟩
          cases hclash : Value.clashAmong? (k :: ks) with
          | some kinds => exact ⟨_, rfl, hinders_of_clashAmong? (hkeys ▸ hclash)⟩
          | none => exact ⟨_, rfl, hinders_first hkeys hclash hl hnone⟩

-- ========================================================== settings

/-- A mapping that describes settings. -/
structure Describes (entries : Entries) (c : Config) : Prop where
  known : ∀ e ∈ entries, ∃ name ∈ fieldNames, e.1 = .text name
  tagNames : Supplies GivesTexts entries "tag_names" defaults.tagNames c.tagNames
  keyAttribute : Supplies GivesText entries "key_attribute" defaults.keyAttribute c.keyAttribute
  keySpace : Supplies GivesText entries "key_prefix" defaults.keySpace c.keySpace
  excludedMarkers :
    Supplies GivesTexts entries "excluded_markers" defaults.excludedMarkers c.excludedMarkers
  extensions : ∃ es, Supplies GivesTexts entries "extensions" defaults.extensions es
    ∧ c.extensions = es.map normalExtension
  exclude : Supplies GivesTexts entries "exclude" defaults.exclude c.exclude

/-- There are no strange keys when every key names a field. -/
theorem strangeKeys_eq_nil :
    strangeKeys entries = [] ↔ ∀ e ∈ entries, ∃ name ∈ fieldNames, e.1 = .text name := by
  rw [List.eq_nil_iff_forall_not_mem]
  simp only [mem_strangeKeys, IsStrange]
  constructor
  · intro h e he
    by_cases hknown : ∃ name ∈ fieldNames, e.1 = .text name
    · exact hknown
    · have hstrange : ∀ name ∈ fieldNames, e.1 ≠ .text name :=
        fun name hname hkey => hknown ⟨name, hname, hkey⟩
      exact absurd ⟨hstrange, e.2, he⟩ (h e.1)
  · intro h k hk
    obtain ⟨hstrange, v, hmem⟩ := hk
    obtain ⟨name, hname, hkey⟩ := h (k, v) hmem
    exact hstrange name hname hkey

/-- The check of the keys passes when every key names a field. -/
theorem checkKeys_eq_ok :
    checkKeys entries = .ok () ↔ ∀ e ∈ entries, ∃ name ∈ fieldNames, e.1 = .text name := by
  rw [← strangeKeys_eq_nil]
  rcases checkKeys_cases entries with
    ⟨hnil, hcheck⟩ | ⟨⟨k, hk, -⟩, x, hcheck, -⟩ | ⟨hne, -, hcheck⟩
  · rw [hcheck, hnil]
    exact ⟨fun _ => rfl, fun _ => rfl⟩
  · rw [hcheck]
    exact ⟨nofun, fun hnil => by rw [hnil] at hk; cases hk⟩
  · rw [hcheck]
    exact ⟨nofun, fun hnil => absurd hnil hne⟩

/-- A mapping is accepted exactly when it describes settings, and gives
these. -/
theorem ofEntries_eq_ok {c : Config} : ofEntries entries = .ok c ↔ Describes entries c := by
  unfold ofEntries
  simp only [bind_eq_ok, textsField_eq_ok, textField_eq_ok]
  constructor
  · intro h
    obtain ⟨_, hkeys, es, hes, tags, htags, key, hkey, space, hspace, markers, hmarkers, exclude,
      hexclude, hc⟩ := h
    obtain rfl := Except.ok.inj hc
    exact ⟨checkKeys_eq_ok.1 hkeys, htags, hkey, hspace, hmarkers, ⟨es, hes, rfl⟩, hexclude⟩
  · intro h
    obtain ⟨es, hes, hc⟩ := h.extensions
    refine ⟨(), checkKeys_eq_ok.2 h.known, es, hes, _, h.tagNames, _, h.keyAttribute, _, h.keySpace,
      _, h.excludedMarkers, _, h.exclude, ?_⟩
    rw [← hc]
    rfl

/-- The fields of texts. -/
def textsFields : List Text := ["tag_names", "excluded_markers", "extensions", "exclude"]

/-- The fields with one text. -/
def textFields : List Text := ["key_attribute", "key_prefix"]

/-- What a fault says about a value, and that it is so. -/
inductive Blames : Value → Fault → Prop where
  | notMapping {v : Value} (h : ∀ entries, v ≠ .map entries) : Blames v .notMapping
  | unknownKeys {entries : Entries} {names : List Text} (hne : names ≠ [])
      (h : ∀ t, t ∈ names ↔ IsStrange (.text t) ∧ ∃ v, (.text t, v) ∈ entries) :
      Blames (.map entries) (.unknownKeys names)
  | unnamedKey {entries : Entries} {x : Hindrance} (h : Hinders entries x) :
      Blames (.map entries) (.unnamedKey x)
  | notTexts {entries : Entries} {name : Text} (hname : name ∈ textsFields)
      (h : Misfits GivesTexts entries name) : Blames (.map entries) (.notTexts name)
  | notText {entries : Entries} {name : Text} (hname : name ∈ textFields)
      (h : Misfits GivesText entries name) : Blames (.map entries) (.notText name)

/-- A mapping is refused by the check of its keys, or for a field. -/
theorem ofEntries_eq_error {f : Fault} (h : ofEntries entries = .error f) :
    checkKeys entries = .error f
      ∨ (∃ name ∈ textsFields, f = .notTexts name ∧ Misfits GivesTexts entries name)
      ∨ ∃ name ∈ textFields, f = .notText name ∧ Misfits GivesText entries name := by
  unfold ofEntries at h
  simp only [bind_eq_error, textsField_eq_error, textField_eq_error] at h
  rcases h with h | ⟨_, -, h | ⟨_, -, h | ⟨_, -, h | ⟨_, -, h | ⟨_, -, h | ⟨_, -, h | ⟨_, -, h⟩⟩⟩⟩⟩⟩⟩
  · exact .inl h
  · exact .inr (.inl ⟨_, by decide, h⟩)
  · exact .inr (.inl ⟨_, by decide, h⟩)
  · exact .inr (.inr ⟨_, by decide, h⟩)
  · exact .inr (.inr ⟨_, by decide, h⟩)
  · exact .inr (.inl ⟨_, by decide, h⟩)
  · exact .inr (.inl ⟨_, by decide, h⟩)
  · cases h

-- ============================================================ values

/-- A value and the settings that it stands for. -/
inductive IsSettings : Value → Config → Prop where
  | null : IsSettings .null defaults
  | map {entries : Entries} {c : Config} (h : Describes entries c) : IsSettings (.map entries) c

/-- A value that holds nothing, though it is no null and no mapping. -/
inductive HoldsNothing : Value → Prop where
  | falsehood : HoldsNothing (.bool false)
  | zero : HoldsNothing (.int 0)
  | zeroFloat (negative : Bool) (e : Int) : HoldsNothing (.float negative (.finite 0 e))
  | text : HoldsNothing (.text [])
  | list : HoldsNothing (.list [])
  | object (kind : Text) : HoldsNothing (.object kind true)

/-- A mapping with a key that is no text. -/
def HasNamelessKey (v : Value) : Prop :=
  ∃ entries, v = .map entries ∧ ∃ e ∈ entries, ∀ t, e.1 ≠ .text t

/-- What holds nothing: null, an empty mapping, and `HoldsNothing`. -/
theorem isVoid_iff {v : Value} :
    v.isVoid = true ↔ v = .null ∨ v = .map [] ∨ HoldsNothing v := by
  constructor
  · intro h
    unfold Value.isVoid at h
    split at h
    · exact .inl rfl
    · rw [Bool.not_eq_true'] at h
      rw [h]
      exact .inr (.inr .falsehood)
    · obtain rfl := of_decide_eq_true h
      exact .inr (.inr .zero)
    · exact .inr (.inr (.zeroFloat _ _))
    · obtain rfl := List.isEmpty_iff.1 h
      exact .inr (.inr .text)
    · obtain rfl := List.isEmpty_iff.1 h
      exact .inr (.inr .list)
    · obtain rfl := List.isEmpty_iff.1 h
      exact .inr (.inl rfl)
    · rw [h]
      exact .inr (.inr (.object _))
    · cases h
  · intro h
    rcases h with rfl | rfl | h
    · rfl
    · rfl
    · cases h <;> rfl

/-- An empty mapping describes the default settings. -/
theorem ofEntries_nil : ofEntries [] = .ok defaults := rfl

/-- A mapping is read entry by entry, an empty one as well. -/
theorem ofValue_map : ofValue (.map entries) = ofEntries entries := by
  cases entries with
  | nil => exact ofEntries_nil.symm
  | cons e es => rfl

/-- What becomes of a value. -/
theorem ofValue_cases (v : Value) :
    (v = .null ∨ HoldsNothing v) ∧ ofValue v = .ok defaults
    ∨ (∃ entries, v = .map entries ∧ ofValue v = ofEntries entries)
    ∨ (∀ entries, v ≠ .map entries) ∧ v ≠ .null ∧ ¬ HoldsNothing v
      ∧ ofValue v = .error .notMapping := by
  by_cases hmap : ∃ entries, v = .map entries
  · obtain ⟨entries, rfl⟩ := hmap
    exact .inr (.inl ⟨entries, rfl, ofValue_map⟩)
  have hmap' : ∀ entries, v ≠ .map entries := fun entries h => hmap ⟨entries, h⟩
  by_cases hvoid : v.isVoid = true
  · left
    refine ⟨?_, if_pos hvoid⟩
    rcases isVoid_iff.1 hvoid with h | h | h
    · exact .inl h
    · exact absurd h (hmap' [])
    · exact .inr h
  · right
    right
    refine ⟨hmap', fun h => hvoid (isVoid_iff.2 (.inl h)),
      fun h => hvoid (isVoid_iff.2 (.inr (.inr h))), ?_⟩
    unfold ofValue
    rw [if_neg hvoid]
    cases v with
    | map entries => exact absurd rfl (hmap' entries)
    | _ => rfl

/-- The values that are accepted, and the settings they give. -/
theorem ofValue_eq_ok {v : Value} {c : Config} :
    ofValue v = .ok c ↔ IsSettings v c ∨ HoldsNothing v ∧ c = defaults := by
  rcases ofValue_cases v with ⟨rfl | h, hv⟩ | ⟨entries, rfl, hv⟩ | ⟨hmap, hnull, hnothing, hv⟩
  · rw [hv]
    constructor
    · intro hc
      cases hc
      exact .inl .null
    · intro hc
      rcases hc with hc | ⟨hc, -⟩
      · cases hc
        rfl
      · cases hc
  · rw [hv]
    constructor
    · intro hc
      exact .inr ⟨h, (Except.ok.inj hc).symm⟩
    · intro hc
      rcases hc with hc | ⟨-, rfl⟩
      · cases hc <;> cases h
      · rfl
  · rw [hv, ofEntries_eq_ok]
    constructor
    · intro hc
      exact .inl (.map hc)
    · intro hc
      rcases hc with hc | ⟨hc, -⟩
      · cases hc with
        | map h => exact h
      · cases hc
  · rw [hv]
    constructor
    · intro hc
      cases hc
    · intro hc
      rcases hc with hc | ⟨hc, -⟩
      · cases hc with
        | null => exact absurd rfl hnull
        | map h => exact absurd rfl (hmap _)
      · exact absurd hc hnothing

/-- The check of the keys fails on a key that is no text. -/
theorem checkKeys_eq_unnamedKey :
    (∃ x, checkKeys entries = .error (.unnamedKey x)) ↔ ∃ e ∈ entries, ∀ t, e.1 ≠ .text t := by
  have hnone {k : Value} : k.text? = none ↔ ∀ t, k ≠ .text t := by
    simp [Option.eq_none_iff_forall_not_mem, text?_eq_some]
  have hstrange : (∃ k ∈ strangeKeys entries, k.text? = none)
      ↔ ∃ e ∈ entries, ∀ t, e.1 ≠ .text t := by
    simp only [mem_strangeKeys, hnone]
    constructor
    · intro h
      obtain ⟨k, ⟨-, v, hmem⟩, hk⟩ := h
      exact ⟨(k, v), hmem, hk⟩
    · intro h
      obtain ⟨e, hmem, hk⟩ := h
      exact ⟨e.1, ⟨fun name _ => hk name, e.2, hmem⟩, hk⟩
  rw [← hstrange]
  rcases checkKeys_cases entries with ⟨hnil, hcheck⟩ | ⟨hlost, x, hcheck, -⟩ | ⟨-, hall, hcheck⟩
  · simp [hcheck, hnil]
  · exact ⟨fun _ => hlost, fun _ => ⟨x, hcheck⟩⟩
  · rw [hcheck]
    constructor
    · intro h
      obtain ⟨kind, h⟩ := h
      cases h
    · intro h
      obtain ⟨k, hk, hname⟩ := h
      exact absurd hname (hall k hk)

/-- Keys that the check reports are just those of the mapping that are no
fields, unless something in the mapping keeps them from being named. -/
theorem blames_of_checkKeys {f : Fault} (h : checkKeys entries = .error f) :
    Blames (.map entries) f := by
  rcases checkKeys_cases entries with ⟨-, hcheck⟩ | ⟨-, x, hcheck, hx⟩ | ⟨hne, hall, hcheck⟩
  · rw [hcheck] at h
    cases h
  · rw [hcheck] at h
    obtain rfl := Except.error.inj h
    exact .unnamedKey hx
  · rw [hcheck] at h
    obtain rfl := Except.error.inj h
    have hmem : ∀ t, t ∈ ((strangeKeys entries).filterMap Value.text?).mergeSort Text.le
        ↔ .text t ∈ strangeKeys entries := by
      intro t
      simp [List.mem_mergeSort, List.mem_filterMap, text?_eq_some]
    refine .unknownKeys ?_ fun t => by rw [hmem, mem_strangeKeys]
    obtain ⟨k, hk⟩ := List.exists_mem_of_ne_nil _ hne
    obtain ⟨t, ht⟩ := Option.ne_none_iff_exists'.1 (hall k hk)
    rw [text?_eq_some] at ht
    exact List.ne_nil_of_mem ((hmem t).2 (ht ▸ hk))

/-- The one refusal that is not foreseen comes from a key that is no text.
-/
theorem ofValue_eq_unnamedKey {v : Value} :
    (∃ x, ofValue v = .error (.unnamedKey x)) ↔ HasNamelessKey v := by
  constructor
  · intro h
    obtain ⟨x, h⟩ := h
    rcases ofValue_cases v with ⟨-, hv⟩ | ⟨entries, rfl, hv⟩ | ⟨-, -, -, hv⟩
    · rw [hv] at h
      cases h
    · rw [hv] at h
      rcases ofEntries_eq_error h with h | ⟨_, _, h, _⟩ | ⟨_, _, h, _⟩
      · exact ⟨entries, rfl, checkKeys_eq_unnamedKey.1 ⟨x, h⟩⟩
      · cases h
      · cases h
    · rw [hv] at h
      cases h
  · intro h
    obtain ⟨entries, rfl, h⟩ := h
    obtain ⟨x, h⟩ := checkKeys_eq_unnamedKey.2 h
    refine ⟨x, ?_⟩
    rw [ofValue_map, ofEntries, h]
    rfl

/-- A refusal is foreseen unless a key cannot be named. -/
theorem isForeseen_refused {f : Fault} :
    (LoadFault.refused f).isForeseen = true ↔ ∀ x, f ≠ .unnamedKey x := by
  cases f <;> simp [LoadFault.isForeseen]

/-- A refusal says what is wrong with the value. -/
theorem blames_of_ofValue {v : Value} {f : Fault} (h : ofValue v = .error f) : Blames v f := by
  rcases ofValue_cases v with ⟨-, hv⟩ | ⟨entries, rfl, hv⟩ | ⟨hmap, -, -, hv⟩
  · rw [hv] at h
    cases h
  · rw [hv] at h
    rcases ofEntries_eq_error h with hkeys | ⟨name, hname, rfl, hv⟩ | ⟨name, hname, rfl, hv⟩
    · exact blames_of_checkKeys hkeys
    · exact .notTexts hname hv
    · exact .notText hname hv
  · rw [hv] at h
    obtain rfl := Except.error.inj h
    exact .notMapping hmap

/-- A value is accepted exactly when it is settings, or holds nothing,
which gives the defaults. A mapping with a key that is no text has no
foreseen outcome; every other value is refused with a foreseen one. A fault
says what is wrong with the value, also one that is not foreseen. -/
theorem ofValue_exact (v : Value) :
    (∀ c, ofValue v = .ok c ↔ IsSettings v c ∨ HoldsNothing v ∧ c = defaults)
    ∧ ((∃ x, ofValue v = .error (.unnamedKey x)) ↔ HasNamelessKey v)
    ∧ ((∃ f, ofValue v = .error f ∧ (LoadFault.refused f).isForeseen = true)
        ↔ (∀ c, ¬ IsSettings v c) ∧ ¬ HoldsNothing v ∧ ¬ HasNamelessKey v)
    ∧ ∀ f, ofValue v = .error f → Blames v f := by
  refine ⟨fun c => ofValue_eq_ok, ofValue_eq_unnamedKey, ?_, fun f h => blames_of_ofValue h⟩
  have hok : (∃ c, ofValue v = .ok c) ↔ (∃ c, IsSettings v c) ∨ HoldsNothing v := by
    simp only [ofValue_eq_ok, exists_or, exists_and_left, exists_eq, and_true]
  rw [← ofValue_eq_unnamedKey, ← not_exists, ← and_assoc, ← not_or, ← hok]
  cases ofValue v with
  | ok c => simp
  | error f => simp [isForeseen_refused]

/-- A number as a key stops the check, an empty list passes for settings,
and a number for a list of texts is refused. -/
theorem ofValue_exact_gaps :
    (∃ x, ofValue (.map [(.int 1, .text "x")]) = .error (.unnamedKey x))
    ∧ ofValue (.list []) = .ok defaults
    ∧ (∀ c, ¬ IsSettings (.list []) c)
    ∧ Blames (.map [(.text "exclude", .int 1)]) (.notTexts "exclude") :=
  ⟨(ofValue_exact _).2.1.2 ⟨_, rfl, _, List.mem_cons_self, nofun⟩,
   (ofValue_exact _).1 _ |>.2 (.inr ⟨.list, rfl⟩),
   nofun,
   (ofValue_exact _).2.2.2 _ rfl⟩

end KeyHarvest.Config
