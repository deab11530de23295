/-
Where the texts of a template come from. Names, values and running text
are cut out of it, and references in them are replaced by characters, so a
template without surrogates has none in its plain attributes and texts.
What its bindings and interpolations can evaluate to is quoted in their
code (`clean_of_parse`), and a refusal shows the template, or a value that
is quoted in its code (`traceable_of_parse`).

The code of a template are the texts and attribute values that are read
one by one when its nodes are built: its passages, once their references
are replaced (`Source.Reads`).
-/
import KeyHarvest.Proofs.Expr.Origin
import KeyHarvest.Proofs.Markup.Behind
import KeyHarvest.Proofs.Template.Order
import KeyHarvest.Proofs.Template.Passages

namespace KeyHarvest

open Text (Scalar)

-- ========================================================= references

namespace Charref

/-- The characters of the standard's names are no surrogates. -/
theorem namesFrom_clear (c : Char) :
    ∀ p ∈ namesFrom c, ∀ n ∈ p.2, n < 0xD800 ∨ 0xDFFF < n := by
  unfold namesFrom
  split <;> decide +kernel

/-- The code point of a number has no surrogate. -/
theorem scalar_ofNumber (n : Nat) : Scalar (ofNumber n) := by
  have hmended : ∀ p ∈ mended, p.2 < 0xD800 ∨ 0xDFFF < p.2 := by decide
  unfold ofNumber
  split
  · next m hm =>
      obtain ⟨before, after, hsplit, -⟩ := List.lookup_eq_some_iff.1 hm
      have hmem : (n, m) ∈ mended := by
        rw [hsplit]
        simp
      simpa using CodePoint.isSurrogate_ofNat (hmended _ hmem)
  · split
    · decide
    · next hrange =>
        split
        · exact Text.scalar_nil
        · simp only [Bool.or_eq_true, Bool.and_eq_true, decide_eq_true_eq] at hrange
          simpa using CodePoint.isSurrogate_ofNat (by omega)

/-- The code points of a name have no surrogate. -/
theorem scalar_ofName? {name t : Text} (h : ofName? name = some t) : Scalar t := by
  unfold ofName? at h
  simp only [Option.bind_eq_bind, Option.bind_eq_some_iff, Option.pure_def, Option.some.injEq] at h
  obtain ⟨s, -, c, -, codes, hcodes, rfl⟩ := h
  obtain ⟨before, after, hsplit, -⟩ := List.lookup_eq_some_iff.1 hcodes
  intro x hx
  obtain ⟨n, hn, rfl⟩ := List.mem_map.1 hx
  have hmem : (s, codes) ∈ namesFrom c := by
    rw [hsplit]
    simp
  exact CodePoint.isSurrogate_ofNat (namesFrom_clear c _ hmem n hn)

/-- Those of the longest name have none either. -/
theorem scalar_longest? {name t : Text} {k n : Nat} (h : longest? name k = some (t, n)) :
    Scalar t := by
  fun_induction longest? name k with
  | case1 => cases h
  | case2 => cases h
  | case3 k u hu =>
      cases h
      exact scalar_ofName? hu
  | case4 k hnone ih => exact ih h

/-- What is put for a name without surrogates has none. -/
theorem scalar_ofName {name : Text} (hname : Scalar name) : Scalar (ofName name) := by
  unfold ofName
  split
  · next t ht => exact scalar_ofName? ht
  · split
    · next t n ht => exact Text.scalar_append.2 ⟨scalar_longest? ht, hname.drop n⟩
    · simpa using hname

/-- What a reference stands for has no surrogate. -/
theorem scalar_reference? {t u : Text} {n : Nat} (ht : Scalar t)
    (h : reference? t = .ok (some (u, n))) : Scalar u := by
  unfold reference? at h
  dsimp only at h
  split at h
  · split at h
    · split at h
      · cases h
        exact scalar_ofNumber _
      · cases h
    · split at h
      · cases h
        exact scalar_ofNumber _
      · cases h
  · split at h
    · cases h
    · cases h
      exact scalar_ofName (ht.take _)

/-- Replacing references brings in no surrogates. -/
theorem scalar_decode {t u : Text} (ht : Scalar t) (h : decode t = .ok u) : Scalar u := by
  fun_induction decode t generalizing u with
  | case1 =>
      cases h
      exact Text.scalar_nil
  | case2 cs ih₁ ih₂ =>
      rw [Text.scalar_cons] at ht
      obtain ⟨o, ho, h⟩ := bind_eq_ok.1 h
      cases o with
      | none =>
          obtain ⟨rest, hrest, h⟩ := bind_eq_ok.1 h
          cases h
          exact Text.scalar_cons.2 ⟨ht.1, ih₁ ht.2 hrest⟩
      | some r =>
          obtain ⟨v, n⟩ := r
          obtain ⟨rest, hrest, h⟩ := bind_eq_ok.1 h
          cases h
          exact Text.scalar_append.2 ⟨scalar_reference? ht.2 ho, ih₂ n (ht.2.drop n) hrest⟩
  | case3 c cs hc ih =>
      rw [Text.scalar_cons] at ht
      obtain ⟨rest, hrest, h⟩ := bind_eq_ok.1 h
      cases h
      exact Text.scalar_cons.2 ⟨ht.1, ih ht.2 hrest⟩

end Charref

-- ===================================================== missing tokens

namespace Markup

open Node (faults walk tagEnds)

theorem Node.mem_walk_of_mem_faults {n : Node} {ns : List Node} (h : n ∈ faults ns) :
    n ∈ walk ns := by
  induction ns using faults.induct with
  | case1 =>
      rw [faults] at h
      cases h
  | case2 m ns hm ih =>
      rw [faults, if_pos hm] at h
      rw [walk_cons, walk_singleton]
      rcases List.mem_cons.1 h with rfl | h
      · simp
      · simp [ih h]
  | case3 m ns hm hflawed ih =>
      rw [faults, if_neg hm, if_pos hflawed] at h
      rw [walk]
      exact List.mem_cons_of_mem m (ih h)
  | case4 m ns hm hflawed ih =>
      rw [faults, if_neg hm, if_neg hflawed] at h
      rw [walk_cons]
      exact List.mem_append_right _ (ih h)

/-- Only the end of a tag is ever missed. -/
def Node.MissesEnds (n : Node) : Prop := ∀ token, n.kind = .absent token → token ∈ tagEnds

/-- At the end of a text no other token is missed than in its stack. -/
theorem Nest.missesEnds_finish {s : Nest} {t : Text} (hs : s.Sound t.length) :
    ∀ n ∈ walk (s.finish t), n.MissesEnds := by
  apply forall_walk_finish (P := Node.MissesEnds) hs (Nat.le_refl _)
  · exact fun n hn => hn.token
  · exact fun f => nofun

/-- A malformed place misses the end of a tag, if it misses a token. -/
theorem missesEnds_of_mem_faults {t : Text} {n : Node} (h : n ∈ faults [parse t]) :
    n.MissesEnds := by
  have hwalk := Node.mem_walk_of_mem_faults h
  rw [Node.walk_singleton] at hwalk
  rcases List.mem_cons.1 hwalk with rfl | hwalk
  · exact nofun
  · exact Nest.missesEnds_finish (nest_sound t) n hwalk

end Markup

namespace Template

open Markup (Kind)

-- ============================================================== names

namespace Role

/-- The name that is bound. -/
def target : Role → Text
  | .directive x | .twoWay x | .input x | .output x | .reference x | .variable x => x
  | .other => []

/-- What stands behind a literal stands in the text. -/
theorem after?_subset {lit t u : Text} (h : Text.after? lit t = some u) : u ⊆ t := by
  unfold Text.after? at h
  split at h
  · cases h
    exact List.drop_subset _ t
  · cases h

/-- What stands between two literals stands in the text. -/
theorem between?_subset {opening closing t u : Text} (h : between? opening closing t = some u) :
    u ⊆ t := by
  unfold between? at h
  split at h
  · cases h
    exact List.Subset.trans (List.take_subset _ _) (List.drop_subset _ t)
  · cases h

/-- The name of a property stands in the name that binds it. -/
theorem propertyName_subset (t : Text) : propertyName t ⊆ t := by
  unfold propertyName
  split
  · exact List.drop_subset _ t
  · exact List.Subset.refl t

/-- The name that is bound is part of the attribute's. -/
theorem target_subset (name : Text) : (ofName name).target ⊆ name := by
  unfold ofName
  cases h : rules.findSome? fun rule => (rule.1 name).map rule.2 with
  | none => exact List.nil_subset name
  | some role =>
      obtain ⟨rule, hrule, hfits⟩ := List.exists_of_findSome?_eq_some h
      obtain ⟨x, hx, rfl⟩ := Option.map_eq_some_iff.1 hfits
      simp only [rules, List.mem_cons, List.not_mem_nil, or_false] at hrule
      rcases hrule with rfl | rfl | rfl | rfl | rfl | rfl | rfl | rfl | rfl | rfl
      · exact after?_subset hx
      · exact between?_subset hx
      · exact after?_subset hx
      · exact List.Subset.trans (propertyName_subset x) (between?_subset hx)
      · exact List.Subset.trans (propertyName_subset x) (after?_subset hx)
      · exact between?_subset hx
      · exact after?_subset hx
      · exact after?_subset hx
      · exact after?_subset hx
      · exact after?_subset hx

end Role

-- =========================================================== refusals

namespace Fault

/-- A fault shows the value `v` of a token. -/
inductive Shows (v : Text) : Fault → Prop where
  | binding (name value : Text) : Shows v (.binding (.unexpectedToken v) name value)
  | interpolation (value : Text) : Shows v (.interpolation (.unexpectedToken v) value)

/-- A fault shows no surrogates, but for those of a value that is quoted in
code of the kind `P`. -/
def Traceable (P : Text → Prop) (fault : Fault) : Prop :=
  Scalar fault.message ∨ ∃ v code, fault.Shows v ∧ ¬ Scalar v ∧ P code ∧ Quotes code v

/-- What a fault shows is part of its message. -/
theorem Shows.scalar {fault : Fault} {v : Text} (h : fault.Shows v) (hm : Scalar fault.message) :
    Scalar v := by
  cases h with
  | binding => simp_all [message, ExprFault.message]
  | interpolation => simp_all [message, ExprFault.message]

variable {P : Text → Prop} {fault : ExprFault}

/-- A fault in a binding is traceable in the template when it is in the
value. -/
theorem traceable_binding {name value : Text} (h : fault.Traceable value) (hname : Scalar name)
    (hvalue : Scalar value) (hcode : P value) : (Fault.binding fault name value).Traceable P := by
  rcases h with h | ⟨v, rfl, hquotes⟩
  · left
    simp [message, h, hname, hvalue]
  · by_cases hv : Scalar v
    · left
      simp [message, ExprFault.message, hv, hname, hvalue]
    · exact .inr ⟨v, value, .binding name value, hv, hcode, hquotes⟩

/-- A fault in an interpolation is traceable in the template when it is in
the value. -/
theorem traceable_interpolation {value : Text} (h : fault.Traceable value) (hvalue : Scalar value)
    (hcode : P value) : (Fault.interpolation fault (Text.trim value)).Traceable P := by
  rcases h with h | ⟨v, rfl, hquotes⟩
  · left
    simp [message, h, hvalue.trim]
  · by_cases hv : Scalar v
    · left
      simp [message, ExprFault.message, hv, hvalue.trim]
    · exact .inr ⟨v, value, .interpolation _, hv, hcode, hquotes⟩

end Fault

namespace Source

variable {s : Source}

/-- What is written in a passage. -/
def written (s : Source) : Passage → Text
  | .stretch raw => raw
  | .binding node => s.partOf node .attributeValue

/-- The texts and attribute values of a template, with their references
replaced. -/
def Reads (s : Source) (code : Text) : Prop :=
  ∃ p ∈ s.passages, Charref.decode (s.written p) = .ok code

/-- The text of a node has no surrogates. -/
theorem scalar_textOf (hs : Scalar s.text) (n : Markup.Node) : Scalar (s.textOf n) := hs.slice _ _

/-- The text of a child has no surrogates. -/
theorem scalar_partOf (hs : Scalar s.text) (n : Markup.Node) (kind : Kind) :
    Scalar (s.partOf n kind) := by
  unfold partOf
  cases n.child? kind with
  | none => exact Text.scalar_nil
  | some c => exact scalar_textOf hs c

mutual

/-- What is written in an element has no surrogates, by recursion over the
tree. -/
theorem scalar_written_element (hs : Scalar s.text) : ∀ n : Markup.Node,
    ∀ p ∈ s.elementPassages n, Scalar (s.written p)
  | ⟨_, start, stop, _, children⟩ => by
      rw [elementPassages, List.forall_mem_append]
      constructor
      · split
        · nofun
        · exact scalar_written_content hs _ _ children
      · intro p hp
        obtain ⟨n, -, rfl⟩ := List.mem_map.1 hp
        exact scalar_partOf hs n .attributeValue

/-- Passages are cut out of the template. -/
theorem scalar_written_content (hs : Scalar s.text) (cursor stop : Nat) :
    ∀ ns : List Markup.Node, ∀ p ∈ s.contentPassages cursor stop ns, Scalar (s.written p)
  | [] => by
      rw [contentPassages, List.forall_mem_singleton]
      exact hs.slice cursor stop
  | n :: ns => by
      rw [contentPassages]
      split
      · rw [List.forall_mem_cons, List.forall_mem_append]
        exact ⟨hs.slice cursor n.start, scalar_written_element hs n,
          scalar_written_content hs n.stop stop ns⟩
      · split
        · rw [List.forall_mem_cons]
          exact ⟨hs.slice cursor n.start, scalar_written_content hs n.stop stop ns⟩
        · exact scalar_written_content hs cursor stop ns

end

theorem decode_eq_ok {t u : Text} : decode t = .ok u ↔ Charref.decode t = .ok u := by
  unfold decode
  cases Charref.decode t with
  | error e => exact iff_of_false nofun nofun
  | ok v => simp [Except.mapError]

/-- References that cannot be replaced are no fault of the template. -/
theorem of_decode_bind_eq_malformed {α : Type} {f : Text → Except Error α} {raw path : Text}
    {fault : Fault} {place : Option Place}
    (h : (decode raw >>= f) = .error (.malformed fault path place)) :
    ∃ value, Charref.decode raw = .ok value ∧ f value = .error (.malformed fault path place) := by
  unfold decode at h
  cases hraw : Charref.decode raw with
  | error e =>
      rw [hraw] at h
      cases h
  | ok value =>
      rw [hraw] at h
      exact ⟨value, rfl, h⟩

variable {P : Text → Prop} {fault : Fault} {path : Text} {place : Option Place}

/-- Text is refused for what stands in its interpolations. -/
theorem traceable_of_textNode? {raw : Text} (hraw : Scalar raw)
    (hcode : ∀ value, Charref.decode raw = .ok value → P value)
    (h : s.textNode? raw = .error (.malformed fault path place)) :
    path = s.path ∧ fault.Traceable P := by
  unfold textNode? at h
  split at h
  · cases h
  · obtain ⟨value, hdecode, h⟩ := of_decode_bind_eq_malformed h
    have hvalue := Charref.scalar_decode hraw hdecode
    split at h
    · cases h
    · cases h
    · next f p hparse =>
        cases h
        exact ⟨rfl, Fault.traceable_interpolation
          (Expr.traceable_of_parseInterpolated hvalue hparse) hvalue (hcode value hdecode)⟩
    · cases h

/-- The refusal of a binding comes from a malformed expression. -/
theorem of_refuseBinding {n : Markup.Node} {name value : Text} {e : ExprError}
    (h : s.refuseBinding n name value e = .malformed fault path place) :
    ∃ f p, e = .malformed f p ∧ path = s.path ∧ fault = .binding f name value := by
  cases e with
  | malformed f p =>
      cases h
      exact ⟨f, p, rfl, rfl, rfl⟩
  | oversized digits => cases h

/-- An attribute is refused for what stands in its value. -/
theorem traceable_of_classify {n : Markup.Node} {name value : Text} (hname : Scalar name)
    (hvalue : Scalar value) (hcode : P value)
    (h : s.classify n name value = .error (.malformed fault path place)) :
    path = s.path ∧ fault.Traceable P := by
  have htarget := hname.subset (Role.target_subset name)
  have hbound : ∀ {x}, Scalar x → s.bound n x value = .error (.malformed fault path place) →
      path = s.path ∧ fault.Traceable P := by
    intro x hx hb
    obtain ⟨e, he, hrefuse⟩ := mapError_eq_error (bind_pure_eq_error.1 hb)
    obtain ⟨f, p, rfl, hpath, rfl⟩ := of_refuseBinding hrefuse
    exact ⟨hpath, Fault.traceable_binding (Expr.traceable_of_parseBinding hvalue he) hx hvalue hcode⟩
  unfold classify at h
  split at h
  · cases h
  · next x hx =>
      rw [hx] at htarget
      exact hbound htarget (bind_pure_eq_error.1 h)
  · next x hx =>
      rw [hx] at htarget
      exact hbound htarget (bind_pure_eq_error.1 h)
  · cases h
  · cases h
  · cases h
  · have hfail : (Expr.parseInterpolated value).mapError (s.refuseBinding n name value)
        = .error (.malformed fault path place) := by
      rw [← refusal?_eq_some] at h ⊢
      rwa [refusal?_bind_of_ok fun o => by cases o <;> rfl] at h
    obtain ⟨e, he, hrefuse⟩ := mapError_eq_error hfail
    obtain ⟨f, p, rfl, hpath, rfl⟩ := of_refuseBinding hrefuse
    exact ⟨hpath, Fault.traceable_binding (Expr.traceable_of_parseInterpolated hvalue he) hname
      hvalue hcode⟩

/-- A passage is refused for what is written in it. -/
theorem traceable_of_refusalOf? (hs : Scalar s.text) {p : Passage} (hp : Scalar (s.written p))
    (hcode : ∀ value, Charref.decode (s.written p) = .ok value → P value)
    (h : s.refusalOf? p = some (.malformed fault path place)) :
    path = s.path ∧ fault.Traceable P := by
  cases p with
  | stretch raw => exact traceable_of_textNode? hp hcode (refusal?_eq_some.1 h)
  | binding node =>
      have hparts : (s.attributeParts node >>= fun parts => s.classify node parts.1 parts.2)
          = decode (s.partOf node .attributeValue) >>= fun value =>
            s.classify node (s.partOf node .attributeName) value := by
        show ((decode (s.partOf node .attributeValue) >>= fun value => pure (_, value)) >>= _) = _
        cases decode (s.partOf node .attributeValue) <;> rfl
      rw [refusalOf?, attributeRefusal?, refusal?_eq_some, hparts] at h
      obtain ⟨value, hdecode, hclassify⟩ := of_decode_bind_eq_malformed h
      exact traceable_of_classify (scalar_partOf hs node .attributeName)
        (Charref.scalar_decode hp hdecode) (hcode value hdecode) hclassify

/-- Malformed markup is shown as it is written. -/
theorem scalar_of_check (hs : Scalar s.text) {t : Text}
    (h : s.check (Markup.parse t) = .error (.malformed fault path place)) :
    path = s.path ∧ Scalar fault.message := by
  have htag : ∀ n, Scalar (s.tagName n) := fun n => scalar_partOf hs n .tagName
  unfold check refuse at h
  -- an end tag that closes nothing: its name is shown
  split at h
  · cases h
    simp [Fault.message, htag]
  · split at h
    · split at h
      · -- a malformed place: the missed token is shown, or the first line of what stands there
        next n ns hfaults =>
          cases h
          refine ⟨rfl, ?_⟩
          have hmem : n ∈ Markup.Node.faults [Markup.parse t] := by
            rw [hfaults]
            exact List.mem_cons_self
          have hends : ∀ token ∈ Markup.Node.tagEnds, Scalar token := by decide
          unfold faultAt
          split
          · next token hkind =>
              simp [Fault.message, hends token (Markup.missesEnds_of_mem_faults hmem token hkind)]
          · have hline := (scalar_textOf hs n).trim.firstLine
            simp only [Fault.message, Text.scalar_append, Text.scalar_ofString, true_and, and_true]
            split
            · exact Text.scalar_ofString _
            · exact hline
      · split at h
        · -- a tag that is left open: its name is shown in small letters
          next n hn =>
            cases h
            refine ⟨rfl, ?_⟩
            have hname : Scalar ((s.unclosedName? n).getD []) := by
              unfold unclosedName?
              dsimp only
              split
              · exact (htag _).lower
              · exact Text.scalar_nil
            simp [Fault.message, hname]
        · cases h
    · cases h

end Source

/-- An error message has surrogates only where its fault has. -/
theorem Error.scalar_message {path : Text} (hpath : Scalar path) (fault : Fault)
    (place : Option Place) :
    Scalar (Error.malformed fault path place).message ↔ Scalar fault.message := by
  have hshown : Scalar (shownPath path) := by
    unfold shownPath
    split
    · exact Text.scalar_ofString _
    · exact hpath
  cases place <;> simp [message, hshown]

/-- A refused template shows what is written in it and the values that are
quoted in its code, and nothing else. -/
theorem traceable_of_parse {path text path' : Text} (htext : Scalar text) {fault : Fault}
    {place : Option Place} (h : parse path text = .error (.malformed fault path' place)) :
    path' = path ∧ fault.Traceable (Source.Reads ⟨text, path⟩) := by
  unfold parse at h
  dsimp only at h
  cases hcheck : Source.check ⟨text, path⟩ (Markup.parse (mask text)) with
  | error e =>
      rw [hcheck] at h
      cases h
      obtain ⟨hpath, hmessage⟩ := Source.scalar_of_check (s := ⟨text, path⟩) htext hcheck
      exact ⟨hpath, .inl hmessage⟩
  | ok _ =>
      rw [hcheck] at h
      have hfirst : refusal? (Source.content ⟨text, path⟩ _ _ _) = _ := refusal?_eq_some.2 h
      rw [Source.refusal?_content] at hfirst
      obtain ⟨p, hp, hrefusal⟩ := List.exists_of_findSome?_eq_some hfirst
      exact Source.traceable_of_refusalOf? (s := ⟨text, path⟩) htext
        (Source.scalar_written_content htext _ _ _ p hp) (fun value hvalue => ⟨p, hp, hvalue⟩)
        hrefusal

-- ============================================================== nodes

/-- Every node of a forest, at any depth. -/
def Everywhere (Q : Node → Prop) (ns : List Node) : Prop := ∀ n ∈ ns, ∀ p ∈ n.preorder, Q p.2

theorem everywhere_nil (Q : Node → Prop) : Everywhere Q [] := fun _ h => nomatch h

/-- What holds everywhere holds of all that is listed in order. -/
theorem everywhere_iff {Q : Node → Prop} {ns : List Node} (i : Nat) :
    Everywhere Q ns ↔ ∀ p ∈ preorderFrom i ns, Q p.2 := by
  induction ns generalizing i with
  | nil => simp [preorderFrom, Everywhere]
  | cons m ms ih =>
      have hcons : Everywhere Q (m :: ms) ↔ (∀ p ∈ m.preorder, Q p.2) ∧ Everywhere Q ms :=
        List.forall_mem_cons
      rw [hcons, preorderFrom, List.forall_mem_append, ← ih (i + 1), List.forall_mem_map]
      rfl

theorem everywhere_singleton {Q : Node → Prop} {n : Node} :
    Everywhere Q [n] ↔ Q n ∧ Everywhere Q n.children := by
  have hsingle : Everywhere Q [n] ↔ ∀ p ∈ n.preorder, Q p.2 := List.forall_mem_singleton
  rw [hsingle, Node.preorder_eq, List.forall_mem_cons, ← everywhere_iff 0]

theorem everywhere_append {Q : Node → Prop} {ns ms : List Node} :
    Everywhere Q (ns ++ ms) ↔ Everywhere Q ns ∧ Everywhere Q ms := List.forall_mem_append

theorem everywhere_cons {Q : Node → Prop} {n : Node} {ns : List Node} :
    Everywhere Q (n :: ns) ↔ Everywhere Q [n] ∧ Everywhere Q ns := @everywhere_append Q [n] ns

/-- What holds everywhere holds of each tree. -/
theorem Everywhere.of_mem {Q : Node → Prop} {n : Node} {ns : List Node} (h : Everywhere Q ns)
    (hn : n ∈ ns) : Q n := by
  refine h n hn ([], n) ?_
  rw [Node.preorder_eq]
  exact List.mem_cons_self

/-- What holds everywhere holds at every address. -/
theorem Everywhere.of_at? {Q : Node → Prop} {ns : List Node} (h : Everywhere Q ns) {a : Address}
    {n : Node} (hn : at? ns a = some n) : Q n := by
  cases a with
  | nil => cases hn
  | cons i a => exact (everywhere_iff 0).1 h _ (mem_preorderFrom.2 ⟨i, a, by rw [Nat.zero_add], hn⟩)

/-- Texts and plain attributes without surrogates, and bound attributes
that can evaluate to texts only if these are quoted in code of the kind
`P`. -/
def Node.Clean (P : Text → Prop) : Node → Prop
  | .text value => Scalar value
  | .boundText _ => True
  | .element _ plain inputs _ _ children _ =>
      (∀ a ∈ plain, Scalar a.value)
        ∧ (∀ b ∈ inputs, ∀ v, .text v ∈ b.value.literals → ∃ code, P code ∧ Quotes code v)
        ∧ ∀ value, .text value ∈ children → Scalar value
  | .template _ _ _ _ => True

/-- The same for the attributes of a tag. -/
structure Attributes.Clean (P : Text → Prop) (a : Attributes) : Prop where
  plain : ∀ x ∈ a.plain, Scalar x.value
  inputs : ∀ b ∈ a.inputs, ∀ v, .text v ∈ b.value.literals → ∃ code, P code ∧ Quotes code v

namespace Source

variable {s : Source} {P : Text → Prop}

/-- White space is collapsed without a surrogate. -/
theorem scalar_collapse {t : Text} (ht : Scalar t) : Scalar (collapse t) := by
  fun_induction collapse t with
  | case1 => exact Text.scalar_nil
  | case2 c cs run hc ih =>
      exact Text.scalar_cons.2 ⟨CodePoint.isSurrogate_ofChar ' ',
        ih ((Text.scalar_cons.1 ht).2.drop run)⟩
  | case3 c cs run hc ih =>
      rw [Text.scalar_cons] at ht ⊢
      exact ⟨ht.1, ih ht.2⟩

/-- The text node of a run without surrogates is clean. -/
theorem clean_of_textNode? {raw : Text} (hraw : Scalar raw) {o : Option Node}
    (h : s.textNode? raw = .ok o) : Everywhere (Node.Clean P) o.toList := by
  unfold textNode? at h
  split at h
  · cases h
    exact everywhere_nil _
  · obtain ⟨value, hdecode, h⟩ := bind_eq_ok.1 h
    have hvalue := Charref.scalar_decode hraw (decode_eq_ok.1 hdecode)
    split at h
    · cases h
      exact everywhere_singleton.2 ⟨trivial, everywhere_nil _⟩
    · cases h
      exact everywhere_singleton.2 ⟨scalar_collapse hvalue, everywhere_nil _⟩
    · cases h
    · cases h

/-- The entries of an attribute without surrogates are clean. -/
theorem clean_of_classify {n : Markup.Node} {name value : Text} (hvalue : Scalar value)
    (hcode : P value) {a : Attributes} (h : s.classify n name value = .ok a) : a.Clean P := by
  have hbound : ∀ {x b}, s.bound n x value = .ok b → ∀ v, .text v ∈ b.value.literals →
      ∃ code, P code ∧ Quotes code v := by
    intro x b hb v hv
    obtain ⟨e, he, hb⟩ := bind_eq_ok.1 hb
    cases hb
    exact ⟨value, hcode, Expr.quotes_of_parseBinding (mapError_eq_ok he) hv⟩
  unfold classify at h
  split at h
  · cases h
    exact ⟨nofun, nofun⟩
  · obtain ⟨b, hb, h⟩ := bind_eq_ok.1 h
    cases h
    exact ⟨nofun, List.forall_mem_singleton.2 (hbound hb)⟩
  · obtain ⟨b, hb, h⟩ := bind_eq_ok.1 h
    cases h
    exact ⟨nofun, List.forall_mem_singleton.2 (hbound hb)⟩
  · cases h
    exact ⟨nofun, nofun⟩
  · cases h
    exact ⟨nofun, nofun⟩
  · cases h
    exact ⟨nofun, nofun⟩
  · obtain ⟨o, ho, h⟩ := bind_eq_ok.1 h
    cases o with
    | none =>
        cases h
        exact ⟨List.forall_mem_singleton.2 hvalue, nofun⟩
    | some e =>
        cases h
        refine ⟨nofun, List.forall_mem_singleton.2 fun v hv => ?_⟩
        exact ⟨value, hcode, Expr.quotes_of_parseInterpolated (mapError_eq_ok ho) hv⟩

/-- The attributes of a tag are clean. -/
theorem clean_of_attributes (hs : Scalar s.text) {ns : List Markup.Node} {a : Attributes}
    (hcode : ∀ p ∈ attributePassages ns, ∀ value, Charref.decode (s.written p) = .ok value → P value)
    (h : s.attributes ns = .ok a) : a.Clean P := by
  induction ns generalizing a with
  | nil =>
      cases h
      exact ⟨nofun, nofun⟩
  | cons n ns ih =>
      unfold attributes at h
      unfold attributePassages at hcode
      split at h
      · next hkind =>
          rw [List.filter_cons_of_pos (by simpa using hkind), List.map_cons,
            List.forall_mem_cons] at hcode
          obtain ⟨parts, hparts, h⟩ := bind_eq_ok.1 h
          obtain ⟨first, hfirst, h⟩ := bind_eq_ok.1 h
          obtain ⟨rest, hrest, h⟩ := bind_eq_ok.1 h
          cases h
          obtain ⟨value, hdecode, hparts⟩ := bind_eq_ok.1 hparts
          cases hparts
          have hvalue := decode_eq_ok.1 hdecode
          have hscalar := Charref.scalar_decode (scalar_partOf hs n .attributeValue) hvalue
          have hf := clean_of_classify hscalar (hcode.1 value hvalue) hfirst
          have hr := ih hcode.2 hrest
          exact ⟨List.forall_mem_append.2 ⟨hf.plain, hr.plain⟩,
            List.forall_mem_append.2 ⟨hf.inputs, hr.inputs⟩⟩
      · next hkind =>
          rw [List.filter_cons_of_neg (by simpa using hkind)] at hcode
          exact ih hcode h

/-- A node made of clean attributes and clean children is clean. -/
theorem clean_assemble {name : Text} {a : Attributes} (ha : a.Clean P) {children : List Node}
    (hchildren : Everywhere (Node.Clean P) children) (line : Nat) :
    Everywhere (Node.Clean P) [assemble name a children line] := by
  have hown : Everywhere (Node.Clean P)
      [if name = Text.ofString "ng-template" then
        .template name { a with directives := [] } children line
      else .element name a.plain a.inputs a.outputs a.references children line] := by
    split
    · exact everywhere_singleton.2 ⟨trivial, hchildren⟩
    · refine everywhere_singleton.2 ⟨⟨ha.plain, ha.inputs, ?_⟩, hchildren⟩
      intro value hvalue
      exact hchildren.of_mem hvalue
  unfold assemble
  dsimp only
  split
  · exact hown
  · exact everywhere_singleton.2 ⟨trivial, hown⟩

mutual

/-- An element is clean, by recursion over the tree. -/
theorem clean_of_element (hs : Scalar s.text) : ∀ (n : Markup.Node) {node : Node},
    (∀ p ∈ s.elementPassages n, ∀ value, Charref.decode (s.written p) = .ok value → P value) →
    s.element n = .ok node → Everywhere (Node.Clean P) [node]
  | ⟨kind, start, stop, flawed, children⟩, node, hcode, h => by
      rw [elementPassages] at hcode
      rw [element] at h
      dsimp only at hcode h
      rw [List.forall_mem_append] at hcode
      split at h
      · obtain ⟨inner, hinner, h⟩ := bind_eq_ok.1 h
        cases hinner
        obtain ⟨a, ha, h⟩ := bind_eq_ok.1 h
        cases h
        exact clean_assemble (clean_of_attributes hs hcode.2 ha) (everywhere_nil _) _
      · next hkind =>
          rw [if_neg hkind] at hcode
          obtain ⟨inner, hinner, h⟩ := bind_eq_ok.1 h
          obtain ⟨a, ha, h⟩ := bind_eq_ok.1 h
          cases h
          exact clean_assemble (clean_of_attributes hs hcode.2 ha)
            (clean_of_content hs _ _ children hcode.1 hinner) _

/-- Nodes are clean when the code of their passages is of the kind `P`. -/
theorem clean_of_content (hs : Scalar s.text) (cursor stop : Nat) :
    ∀ (ns : List Markup.Node) {nodes : List Node},
    (∀ p ∈ s.contentPassages cursor stop ns, ∀ value,
      Charref.decode (s.written p) = .ok value → P value) →
    s.content cursor stop ns = .ok nodes → Everywhere (Node.Clean P) nodes
  | [], nodes, _, h => by
      rw [content] at h
      obtain ⟨o, ho, h⟩ := bind_eq_ok.1 h
      cases h
      exact clean_of_textNode? (hs.slice cursor stop) ho
  | n :: ns, nodes, hcode, h => by
      rw [contentPassages] at hcode
      rw [content] at h
      split at h
      · next hkind =>
          rw [if_pos hkind, List.forall_mem_cons, List.forall_mem_append] at hcode
          obtain ⟨before, hbefore, h⟩ := bind_eq_ok.1 h
          obtain ⟨e, he, h⟩ := bind_eq_ok.1 h
          obtain ⟨rest, hrest, h⟩ := bind_eq_ok.1 h
          cases h
          refine everywhere_append.2 ⟨clean_of_textNode? (hs.slice cursor n.start) hbefore, ?_⟩
          exact everywhere_cons.2 ⟨clean_of_element hs n hcode.2.1 he,
            clean_of_content hs n.stop stop ns hcode.2.2 hrest⟩
      · next hkind =>
          rw [if_neg hkind] at hcode
          split at h
          · next hskipped =>
              rw [if_pos hskipped, List.forall_mem_cons] at hcode
              obtain ⟨before, hbefore, h⟩ := bind_eq_ok.1 h
              obtain ⟨rest, hrest, h⟩ := bind_eq_ok.1 h
              cases h
              exact everywhere_append.2 ⟨clean_of_textNode? (hs.slice cursor n.start) hbefore,
                clean_of_content hs n.stop stop ns hcode.2 hrest⟩
          · next hskipped =>
              rw [if_neg hskipped] at hcode
              exact clean_of_content hs cursor stop ns hcode h

end

end Source

/-- The nodes of a template without surrogates are clean. -/
theorem clean_of_parse {path text : Text} (htext : Scalar text) {nodes : List Node}
    (h : parse path text = .ok nodes) :
    Everywhere (Node.Clean (Source.Reads ⟨text, path⟩)) nodes := by
  obtain ⟨_, -, hcontent⟩ := bind_eq_ok.1 h
  exact Source.clean_of_content (s := ⟨text, path⟩) htext _ _ _
    (fun p hp value hvalue => ⟨p, hp, hvalue⟩) hcontent

-- ========================================================= surrogates

namespace Source

variable {s : Source} {code v : Text}

/-- What is read of a template without surrogates has none. -/
theorem Reads.scalar (hs : Scalar s.text) (h : s.Reads code) : Scalar code := by
  obtain ⟨p, hp, hdecode⟩ := h
  exact Charref.scalar_decode (scalar_written_content hs _ _ _ p hp) hdecode

/-- The body of a quotation in the code of a template is scalar. -/
theorem Reads.scalar_body (hs : Scalar s.text) (h : s.Reads code) {q : CodePoint} {body : Text}
    (hin : quotation q body <:+: code) : Scalar body :=
  (h.scalar hs).part ((infix_quotation q body).trans hin)

/-- A value that is quoted in the code of a template, with a surrogate
that an escape spells. -/
def Conjures (s : Source) (v : Text) : Prop :=
  ∃ code q body, s.Reads code ∧ (q = CodePoint.ofChar '\'' ∨ q = CodePoint.ofChar '"')
    ∧ QuotedBody q body ∧ quotation q body <:+: code ∧ v = Escape.decode body
    ∧ Escape.SpellsSurrogate body

/-- Of the values that are quoted in a template without surrogates, those
that have some have them from their escapes. -/
theorem conjures_of_quotes (hs : Scalar s.text) (hcode : s.Reads code) (h : Quotes code v)
    (hv : ¬ Scalar v) : s.Conjures v := by
  obtain ⟨q, body, hq, hquoted, hin, rfl⟩ := h
  rw [Escape.scalar_decode (hcode.scalar_body hs hin), Classical.not_not] at hv
  exact ⟨code, q, body, hcode, hq, hquoted, hin, rfl, hv⟩

/-- What is conjured has a surrogate. -/
theorem Conjures.not_scalar (hs : Scalar s.text) (h : s.Conjures v) : ¬ Scalar v := by
  obtain ⟨code, q, body, hcode, -, -, hin, rfl, hspells⟩ := h
  rw [Escape.scalar_decode (hcode.scalar_body hs hin), Classical.not_not]
  exact hspells

end Source

end Template

end KeyHarvest
