/-
The groups of the attributes of a tag. Every attribute gives one entry, in
one of the six groups, but for a two-way binding, which gives two
(`Gives`); and the groups of a tag are the entries of its attributes in
order, each in its group (`Attributes.ofEntries`).

What a tag gives is decided by the names and the values of its attributes
alone. Where they stand matters only to a refusal, and only to the place
that it reports (`classify_moved`).
-/
import KeyHarvest.Proofs.Expr.Enclosed
import KeyHarvest.Proofs.Refusal
import KeyHarvest.Proofs.Template.Role
import KeyHarvest.Template.Build
import Mathlib.Data.List.Forall2

namespace KeyHarvest.Template

open Role (Bears IsOrdinary Respelled)

-- ============================================================ entries

/-- An entry in one of the groups. -/
inductive Entry where
  | plain (a : TextAttribute)
  | input (b : BoundAttribute)
  | output (e : BoundEvent)
  | reference (r : Reference)
  | declared (v : Variable)
  | directive (a : TextAttribute)

namespace Entry

/-- The entry, if it is in the group of plain attributes. -/
def plain? : Entry → Option TextAttribute
  | .plain a => some a
  | _ => none

/-- The entry, if it is in the group of inputs. -/
def input? : Entry → Option BoundAttribute
  | .input b => some b
  | _ => none

/-- The entry, if it is in the group of outputs. -/
def output? : Entry → Option BoundEvent
  | .output e => some e
  | _ => none

/-- The entry, if it is in the group of references. -/
def reference? : Entry → Option Reference
  | .reference r => some r
  | _ => none

/-- The entry, if it is in the group of variables. -/
def declared? : Entry → Option Variable
  | .declared v => some v
  | _ => none

/-- The entry, if it is in the group of directives. -/
def directive? : Entry → Option TextAttribute
  | .directive a => some a
  | _ => none

end Entry

namespace Attributes

/-- Entries in order, each in its group. -/
def ofEntries (es : List Entry) : Attributes where
  plain := es.filterMap Entry.plain?
  inputs := es.filterMap Entry.input?
  outputs := es.filterMap Entry.output?
  references := es.filterMap Entry.reference?
  locals := es.filterMap Entry.declared?
  directives := es.filterMap Entry.directive?

/-- The number of entries in all groups. -/
def size (a : Attributes) : Nat :=
  a.plain.length + a.inputs.length + a.outputs.length + a.references.length + a.locals.length
    + a.directives.length

theorem ofEntries_append (es fs : List Entry) :
    ofEntries (es ++ fs) = (ofEntries es).append (ofEntries fs) := by
  simp [ofEntries, append]

theorem size_append (a b : Attributes) : (a.append b).size = a.size + b.size := by
  simp only [size, append, List.length_append]
  omega

/-- No entry is lost. -/
theorem size_ofEntries (es : List Entry) : (ofEntries es).size = es.length := by
  induction es with
  | nil => rfl
  | cons e es ih =>
      have hone : (ofEntries [e]).size = 1 := by cases e <;> rfl
      rw [← List.singleton_append, ofEntries_append, size_append, hone, ih, List.length_append]
      rfl

end Attributes

-- ======================================================== one attribute

/-- An attribute of a tag: its markup, its name and its value. -/
structure TagAttribute where
  node : Markup.Node
  name : Text
  value : Text

namespace TagAttribute

/-- The entries of an attribute: what its name is spelled like decides
their group. An ordinary name is that of an input when its value has
interpolations. -/
inductive Gives (a : TagAttribute) : List Entry → Prop where
  | directive {x : Text} (h : Bears a.name (.directive x)) : Gives a [.directive ⟨x, a.value⟩]
  | twoWay {x : Text} {e : Expr} (h : Bears a.name (.twoWay x))
      (he : Expr.parseBinding a.value = .ok e) :
      Gives a [.input ⟨x, e⟩, .output ⟨x ++ "Change", a.value⟩]
  | input {x : Text} {e : Expr} (h : Bears a.name (.input x))
      (he : Expr.parseBinding a.value = .ok e) : Gives a [.input ⟨x, e⟩]
  | output {x : Text} (h : Bears a.name (.output x)) : Gives a [.output ⟨x, a.value⟩]
  | reference {x : Text} (h : Bears a.name (.reference x)) : Gives a [.reference ⟨x, a.value⟩]
  | declared {x : Text} (h : Bears a.name (.variable x)) : Gives a [.declared ⟨x, a.value⟩]
  | interpolated {e : Expr} (h : IsOrdinary a.name)
      (he : Expr.parseInterpolated a.value = .ok (some e)) : Gives a [.input ⟨a.name, e⟩]
  | plain (h : IsOrdinary a.name) (he : Expr.parseInterpolated a.value = .ok none) :
      Gives a [.plain ⟨a.name, a.value⟩]

/-- An attribute whose expressions can be read, if it has any. -/
structure Readable (a : TagAttribute) : Prop where
  binding : ∀ x, Bears a.name (.twoWay x) ∨ Bears a.name (.input x) →
    ∃ e, Expr.parseBinding a.value = .ok e
  interpolation : IsOrdinary a.name → ∃ o, Expr.parseInterpolated a.value = .ok o

/-- A two-way binding. -/
def IsTwoWay (a : TagAttribute) : Prop := ∃ x, Bears a.name (.twoWay x)

instance : DecidablePred IsTwoWay := fun a =>
  match h : Role.ofName a.name with
  | .twoWay x => isTrue ⟨x, Role.bears_iff.2 ⟨h, nofun⟩⟩
  | .directive _ | .input _ | .output _ | .reference _ | .variable _ | .other =>
      isFalse fun ⟨x, hx⟩ => by simp [Role.ofName_of_bears hx] at h

variable {a : TagAttribute} {es fs : List Entry}

theorem Gives.unique (hes : a.Gives es) (hfs : a.Gives fs) : es = fs := by
  cases hes <;> cases hfs <;> simp_all [Role.bears_iff, ← Role.ofName_eq_other]

theorem Gives.length (h : a.Gives es) : es.length = 1 + if a.IsTwoWay then 1 else 0 := by
  cases h with
  | twoWay h => rw [if_pos ⟨_, h⟩]; rfl
  | interpolated h | plain h =>
      rw [if_neg fun ⟨_, hx⟩ => h _ hx]
      rfl
  | directive h | input h | output h | reference h | declared h =>
      rw [if_neg fun ⟨_, hx⟩ => nomatch h.unique hx]
      rfl

theorem exists_gives : (∃ es, a.Gives es) ↔ a.Readable := by
  constructor
  · intro h
    obtain ⟨es, h⟩ := h
    cases h with
    | twoWay h he | input h he => exact ⟨fun _ _ => ⟨_, he⟩, fun hname => absurd h (hname _)⟩
    | interpolated h he | plain h he =>
        exact ⟨fun x hx => (hx.elim (h _) (h _)).elim, fun _ => ⟨_, he⟩⟩
    | directive h | output h | reference h | declared h =>
        refine ⟨fun x hx => ?_, fun hname => absurd h (hname _)⟩
        rcases hx with hx | hx
        · cases h.unique hx
        · cases h.unique hx
  · intro h
    by_cases hname : IsOrdinary a.name
    · obtain ⟨o, ho⟩ := h.interpolation hname
      cases o with
      | none => exact ⟨_, .plain hname ho⟩
      | some e => exact ⟨_, .interpolated hname ho⟩
    · obtain ⟨r, hr⟩ := Classical.not_forall_not.1 hname
      cases r with
      | directive x => exact ⟨_, .directive hr⟩
      | twoWay x =>
          obtain ⟨e, he⟩ := h.binding x (.inl hr)
          exact ⟨_, .twoWay hr he⟩
      | input x =>
          obtain ⟨e, he⟩ := h.binding x (.inr hr)
          exact ⟨_, .input hr he⟩
      | output x => exact ⟨_, .output hr⟩
      | reference x => exact ⟨_, .reference hr⟩
      | «variable» x => exact ⟨_, .declared hr⟩
      | other => exact absurd rfl hr.ne_other

/-- The same value under a respelled name, wherever it stands. -/
structure Respells (a a' : TagAttribute) : Prop where
  name : Respelled a.name a'.name
  value : a'.value = a.value

end TagAttribute

-- =========================================================== refusals

/-- A refusal with another place. -/
def Error.movedTo (p : Place) : Error → Error
  | .malformed fault path _ => .malformed fault path (some p)
  | .oversized digits => .oversized digits

namespace Source

open Attributes (ofEntries)

variable {s s' : Source}

/-- Where a markup node begins. -/
def placeOf (s : Source) (n : Markup.Node) : Place := Place.ofOffset s.text n.start

theorem mapError_movedTo {α : Type} (hpath : s'.path = s.path) (x : Except ExprError α)
    (n n' : Markup.Node) (name value : Text) :
    x.mapError (s'.refuseBinding n' name value)
      = (x.mapError (s.refuseBinding n name value)).mapError (Error.movedTo (s'.placeOf n')) := by
  cases x with
  | ok a => rfl
  | error e =>
      cases e <;> simp [Except.mapError, refuseBinding, refuse, Error.movedTo, placeOf, hpath]

/-- What an attribute gives is the same wherever it stands, but for the
place of a refusal. -/
theorem classify_moved (hpath : s'.path = s.path) (n n' : Markup.Node) (name value : Text) :
    s'.classify n' name value
      = (s.classify n name value).mapError (Error.movedTo (s'.placeOf n')) := by
  unfold classify bound
  cases Role.ofName name with
  | directive | output | reference | «variable» => rfl
  | twoWay x | input x =>
      simp only [mapError_movedTo hpath _ n n' x value, mapError_bind]
      rfl
  | other =>
      simp only [mapError_movedTo hpath _ n n' name value, mapError_bind]
      congr 1
      funext o
      cases o <;> rfl

/-- The groups of one attribute are those of its entries. -/
theorem classify_eq_ok {a : TagAttribute} {g : Attributes} :
    s.classify a.node a.name a.value = .ok g ↔ ∃ es, a.Gives es ∧ g = ofEntries es := by
  constructor
  · intro h
    unfold classify at h
    split at h
    · next x hname =>
        cases h
        exact ⟨_, .directive (Role.bears_iff.2 ⟨hname, nofun⟩), rfl⟩
    · next x hname =>
        obtain ⟨b, hb, h⟩ := bind_eq_ok.1 h
        obtain ⟨e, he, hb⟩ := bind_eq_ok.1 hb
        cases hb
        cases h
        exact ⟨_, .twoWay (Role.bears_iff.2 ⟨hname, nofun⟩) (mapError_eq_ok he), rfl⟩
    · next x hname =>
        obtain ⟨b, hb, h⟩ := bind_eq_ok.1 h
        obtain ⟨e, he, hb⟩ := bind_eq_ok.1 hb
        cases hb
        cases h
        exact ⟨_, .input (Role.bears_iff.2 ⟨hname, nofun⟩) (mapError_eq_ok he), rfl⟩
    · next x hname =>
        cases h
        exact ⟨_, .output (Role.bears_iff.2 ⟨hname, nofun⟩), rfl⟩
    · next x hname =>
        cases h
        exact ⟨_, .reference (Role.bears_iff.2 ⟨hname, nofun⟩), rfl⟩
    · next x hname =>
        cases h
        exact ⟨_, .declared (Role.bears_iff.2 ⟨hname, nofun⟩), rfl⟩
    · next hname =>
        obtain ⟨o, ho, h⟩ := bind_eq_ok.1 h
        have hordinary := Role.ofName_eq_other.1 hname
        cases o with
        | none =>
            cases h
            exact ⟨_, .plain hordinary (mapError_eq_ok ho), rfl⟩
        | some e =>
            cases h
            exact ⟨_, .interpolated hordinary (mapError_eq_ok ho), rfl⟩
  · -- the spelling decides the role, and the role what is read
    intro h
    obtain ⟨es, h, rfl⟩ := h
    unfold classify bound
    cases h with
    | directive h | output h | reference h | declared h => rw [Role.ofName_of_bears h]; rfl
    | twoWay h he | input h he => rw [Role.ofName_of_bears h, he]; rfl
    | interpolated h he | plain h he => rw [Role.ofName_eq_other.2 h, he]; rfl

/-- An attribute is refused when it is not readable. -/
theorem exists_classify {a : TagAttribute} :
    (∃ g, s.classify a.node a.name a.value = .ok g) ↔ a.Readable := by
  simp only [classify_eq_ok, ← TagAttribute.exists_gives]
  constructor
  · intro h
    obtain ⟨_, es, hes, -⟩ := h
    exact ⟨es, hes⟩
  · intro h
    obtain ⟨es, hes⟩ := h
    exact ⟨_, es, hes, rfl⟩

/-- A respelled attribute gives the same, and is refused with the same
fault. -/
theorem classify_respells (hpath : s'.path = s.path) {a a' : TagAttribute} (h : a.Respells a') :
    s'.classify a'.node a'.name a'.value
      = (s.classify a.node a.name a.value).mapError (Error.movedTo (s'.placeOf a'.node)) := by
  rw [← classify_moved hpath a.node a'.node, h.value]
  rcases h.name.cases_bears with hname | ⟨r, hr, hr'⟩
  · rw [hname]
  · unfold classify
    rw [Role.ofName_of_bears hr, Role.ofName_of_bears hr']
    cases r with
    | other => exact absurd rfl hr.ne_other
    | _ => rfl

-- ====================================================== all attributes

/-- The attributes that markup nodes of a tag are, in order. -/
inductive Writes (s : Source) : List Markup.Node → List TagAttribute → Prop where
  | nil : Writes s [] []
  | take {n : Markup.Node} {ns : List Markup.Node} {name value : Text}
      {as : List TagAttribute} (hkind : n.kind = .attribute)
      (hparts : s.attributeParts n = .ok (name, value)) (h : Writes s ns as) :
      Writes s (n :: ns) (⟨n, name, value⟩ :: as)
  | skip {n : Markup.Node} {ns : List Markup.Node} {as : List TagAttribute}
      (hkind : n.kind ≠ .attribute) (h : Writes s ns as) : Writes s (n :: ns) as

/-- The groups of attributes in order. -/
def gather (s : Source) : List TagAttribute → Except Error Attributes
  | [] => .ok .empty
  | a :: as => do
      let first ← s.classify a.node a.name a.value
      let rest ← s.gather as
      return first.append rest

theorem attributes_eq_gather {ns : List Markup.Node} {as : List TagAttribute} (h : s.Writes ns as) :
    s.attributes ns = s.gather as := by
  induction h with
  | nil => rfl
  | take hkind hparts _ ih =>
      rw [attributes, if_pos hkind, hparts, ih]
      rfl
  | skip hkind _ ih => rw [attributes, if_neg hkind, ih]

theorem gather_eq_ok {as : List TagAttribute} {g : Attributes} :
    s.gather as = .ok g
      ↔ ∃ ess, List.Forall₂ TagAttribute.Gives as ess ∧ g = ofEntries ess.flatten := by
  induction as generalizing g with
  | nil =>
      constructor
      · intro h
        cases h
        exact ⟨[], .nil, rfl⟩
      · intro h
        obtain ⟨ess, hess, rfl⟩ := h
        cases hess
        rfl
  | cons a as ih =>
      simp only [gather, bind_eq_ok, classify_eq_ok, ih]
      constructor
      · intro h
        obtain ⟨_, ⟨es, hes, rfl⟩, _, ⟨ess, hess, rfl⟩, h⟩ := h
        cases h
        exact ⟨es :: ess, .cons hes hess, (Attributes.ofEntries_append es ess.flatten).symm⟩
      · intro h
        obtain ⟨ess, hess, rfl⟩ := h
        cases hess with
        | @cons _ es _ ess hes hess =>
            refine ⟨_, ⟨es, hes, rfl⟩, _, ⟨ess, hess, rfl⟩, ?_⟩
            rw [List.flatten_cons, Attributes.ofEntries_append]
            rfl

/-- The entries of attributes are as many as the attributes, and one more
for each two-way binding. -/
theorem length_flatten_of_gives {as : List TagAttribute} {ess : List (List Entry)}
    (h : List.Forall₂ TagAttribute.Gives as ess) :
    ess.flatten.length = as.length + as.countP (fun a => a.IsTwoWay) := by
  induction h with
  | nil => rfl
  | @cons a es as ess ha _ ih =>
      rw [List.flatten_cons, List.length_append, ih, ha.length, List.length_cons, List.countP_cons]
      simp only [decide_eq_true_eq]
      omega

theorem exists_gather {as : List TagAttribute} :
    (∃ g, s.gather as = .ok g) ↔ ∀ a ∈ as, a.Readable := by
  induction as with
  | nil => exact ⟨fun _ => nofun, fun _ => ⟨_, rfl⟩⟩
  | cons a as ih =>
      rw [List.forall_mem_cons, ← ih, ← exists_classify (s := s)]
      simp only [gather, bind_eq_ok]
      constructor
      · intro h
        obtain ⟨_, first, hfirst, rest, hrest, -⟩ := h
        exact ⟨⟨first, hfirst⟩, rest, hrest⟩
      · intro h
        obtain ⟨⟨first, hfirst⟩, rest, hrest⟩ := h
        exact ⟨_, first, hfirst, rest, hrest, rfl⟩

theorem gather_of_error {a : TagAttribute} {e : Error} (as : List TagAttribute)
    (h : s.classify a.node a.name a.value = .error e) : s.gather (a :: as) = .error e := by
  rw [gather, h]
  rfl

theorem gather_of_ok {a : TagAttribute} {first : Attributes} (as : List TagAttribute)
    (h : s.classify a.node a.name a.value = .ok first) :
    s.gather (a :: as) = s.gather as >>= fun rest => .ok (first.append rest) := by
  rw [gather, h]
  rfl

/-- What becomes of attributes under other spellings, at other places: the
same groups, or the refusal of the same attribute, which is the first one
that is not readable. -/
theorem gather_respells (hpath : s'.path = s.path) {as as' : List TagAttribute}
    (h : List.Forall₂ TagAttribute.Respells as as') :
    (∀ g, s.gather as = .ok g → s'.gather as' = .ok g)
    ∧ ∀ e, s.gather as = .error e →
      Reaches (fun p => p.1.Readable)
        (fun p => ¬ p.1.Readable ∧ e = e.movedTo (s.placeOf p.1.node)
          ∧ s'.gather as' = .error (e.movedTo (s'.placeOf p.2.node))) (as.zip as') := by
  induction h with
  | nil => exact ⟨fun g hg => hg, nofun⟩
  | @cons a a' as as' ha _ ih =>
      have hmoved := classify_respells hpath ha
      rw [List.zip_cons_cons]
      simp only [reaches_cons]
      cases hfirst : s.classify a.node a.name a.value with
      -- the first attribute that cannot be read decides
      | error e =>
          rw [hfirst] at hmoved
          rw [gather_of_error as hfirst, gather_of_error as' hmoved]
          refine ⟨nofun, fun e' he => .inl ?_⟩
          obtain rfl : e = e' := Except.error.inj he
          have hunread : ¬ a.Readable := by
            intro hread
            obtain ⟨g, hg⟩ := exists_classify.2 hread
            rw [hg] at hfirst
            cases hfirst
          have hplace : e = e.movedTo (s.placeOf a.node) := by
            have hown : s.classify a.node a.name a.value
                = (s.classify a.node a.name a.value).mapError (Error.movedTo (s.placeOf a.node)) :=
              classify_moved rfl a.node a.node a.name a.value
            rw [hfirst] at hown
            exact Except.error.inj hown
          exact ⟨hunread, hplace, rfl⟩
      | ok first =>
          rw [hfirst] at hmoved
          rw [gather_of_ok as hfirst, gather_of_ok as' hmoved]
          -- the first attribute is read on both sides
          constructor
          · intro g hg
            obtain ⟨rest, hrest, hg⟩ := bind_eq_ok.1 hg
            exact bind_eq_ok.2 ⟨rest, ih.1 rest hrest, hg⟩
          · intro e he
            rcases bind_eq_error.1 he with he | ⟨_, -, he⟩
            · refine .inr ⟨exists_classify.1 ⟨first, hfirst⟩, (ih.2 e he).imp (fun _ _ hp => hp) ?_⟩
              intro p _ hp
              obtain ⟨hunread, hplace, he'⟩ := hp
              exact ⟨hunread, hplace, bind_eq_error.2 (.inl he')⟩
            · cases he

/-- Tags lose no attribute, whatever its spelling. The attributes of a tag
are grouped if and only if they are readable. Each of them gives entries in
one way, and the groups are these entries in the order of the tag; they
are as many as the attributes, and one more for each two-way binding.

Another tag, with words respelled by signs, has the same groups. If one of
the tags is refused, so is the other, for the same attribute and with the
same fault; each refusal has the place of the attribute in its own tag, so
they are equal if it begins at the same place in both. -/
theorem attributes_grouped {ns : List Markup.Node} {as : List TagAttribute} (h : s.Writes ns as) :
    ((∃ g, s.attributes ns = .ok g) ↔ ∀ a ∈ as, a.Readable)
    ∧ (∀ g, s.attributes ns = .ok g → ∃ ess,
        (∀ fss, List.Forall₂ TagAttribute.Gives as fss ↔ fss = ess)
        ∧ g = ofEntries ess.flatten
        ∧ g.size = as.length + as.countP (fun a => a.IsTwoWay))
    ∧ ∀ (s' : Source) (ns' : List Markup.Node) (as' : List TagAttribute),
        s'.path = s.path → s'.Writes ns' as' → List.Forall₂ TagAttribute.Respells as as' →
        (∀ g, s.attributes ns = .ok g → s'.attributes ns' = .ok g)
        ∧ ∀ e, s.attributes ns = .error e →
          Reaches (fun p => p.1.Readable)
            (fun p => ¬ p.1.Readable ∧ e = e.movedTo (s.placeOf p.1.node)
              ∧ s'.attributes ns' = .error (e.movedTo (s'.placeOf p.2.node))) (as.zip as') := by
  rw [attributes_eq_gather h]
  refine ⟨exists_gather, ?_, ?_⟩
  · intro g hg
    obtain ⟨ess, hess, rfl⟩ := gather_eq_ok.1 hg
    have hunique : Relator.RightUnique TagAttribute.Gives := fun _ _ _ => TagAttribute.Gives.unique
    refine ⟨ess, fun fss => ⟨fun hfss => ?_, fun hfss => hfss ▸ hess⟩, rfl, ?_⟩
    · exact List.right_unique_forall₂' hunique hfss hess
    · rw [Attributes.size_ofEntries, length_flatten_of_gives hess]
  · intro s' ns' as' hpath h' hrespells
    rw [attributes_eq_gather h']
    exact gather_respells hpath hrespells

/-- A two-way binding and an event, in words and in signs. -/
theorem attributes_grouped_words :
    let node (start middle stop : Nat) : Markup.Node :=
      .branch .attribute start stop
        [.leaf .attributeName start middle, .leaf .attributeValue (middle + 1) stop]
    let s : Source := ⟨"<a bindon-x=y on-z=w>", []⟩
    let s' : Source := ⟨"<a [(x)]=y (z)=w>", []⟩
    ∃ g, s.attributes [node 3 11 13, node 14 18 20] = .ok g ∧ g.size = 3
      ∧ s'.attributes [node 3 8 10, node 11 14 16] = .ok g := by
  intro node s s'
  have hw : s.Writes [node 3 11 13, node 14 18 20]
      [⟨node 3 11 13, "bindon-x", "y"⟩, ⟨node 14 18 20, "on-z", "w"⟩] :=
    .take rfl (by decide +kernel) (.take rfl (by decide +kernel) .nil)
  have hw' : s'.Writes [node 3 8 10, node 11 14 16]
      [⟨node 3 8 10, "[(x)]", "y"⟩, ⟨node 11 14 16, "(z)", "w"⟩] :=
    .take rfl (by decide +kernel) (.take rfl (by decide +kernel) .nil)
  have hbox : Bears (Text.ofString "bindon-x") (.twoWay ['x']) := .bindonWord ['x']
  have hround : Bears (Text.ofString "on-z") (.output ['z']) := .onWord ['z']
  have hread : ∀ a ∈ [(⟨node 3 11 13, "bindon-x", "y"⟩ : TagAttribute),
      ⟨node 14 18 20, "on-z", "w"⟩], a.Readable := by
    intro a ha
    simp only [List.mem_cons, List.not_mem_nil, or_false] at ha
    have hy : ∃ e, Expr.parseBinding "y" = .ok e := by
      have htokens : tokenize 0 (Text.ofString "y") = .ok [⟨.name ['y'], 0⟩] := by decide +kernel
      refine ⟨.sourced (.property .context ['y']) "y", ?_⟩
      unfold Expr.parseBinding
      rw [Expr.parseAt_eq, htokens]
      cbv
    rcases ha with rfl | rfl
    · exact ⟨fun _ _ => hy, fun h => absurd hbox (h _)⟩
    · refine ⟨fun x hx => ?_, fun h => absurd hround (h _)⟩
      rcases hx with hx | hx
      · cases hx.unique hround
      · cases hx.unique hround
  obtain ⟨hiff, hgroups, hrespells⟩ := attributes_grouped hw
  obtain ⟨g, hg⟩ := hiff.2 hread
  obtain ⟨ess, -, -, hsize⟩ := hgroups g hg
  refine ⟨g, hg, ?_, (hrespells s' _ _ rfl hw' ?_).1 g hg⟩
  · rw [hsize]
    decide +kernel
  · exact .cons ⟨.box ['x'], rfl⟩ (.cons ⟨.round ['z'], rfl⟩ .nil)

end Source

end KeyHarvest.Template
