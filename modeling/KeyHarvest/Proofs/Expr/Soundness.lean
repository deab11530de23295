/-
What is read is derivable. Whenever a symbol of the grammar reads tokens,
those tokens derive its tree (`derives_of_reads`), so no token is skipped,
taken twice or moved. The proof is one induction on the number of tokens.
Inside it the symbols are taken from the tightest to the loosest, each
from what the tighter ones do on the same tokens and what all of them do
on fewer (`SoundBelow`). For a loop it is shown what one turn adds, and
from that what all turns add.

# Backtick literals

The grammar takes the tree of a backtick literal from its token. `Faithful`
says that these trees are derivable; for the tokens of a text it is the
same theorem for the shorter texts in the substitutions, so the statement
about texts is an induction of its own (`denotes_of_parseAt`).
-/
import KeyHarvest.Proofs.Expr.Derivation
import Mathlib.Data.List.Permutation

namespace KeyHarvest.Grammar

variable {stop n : Nat} {ts r : List Item}

-- ========================================================= vocabulary

/-- Items as the tokens of the text they come from. -/
def plain (ts : List Item) : List (TokenKind Text) := ts.map fun t => t.kind.map Backtick.body

/-- A stretch of tokens up to a rest, and what it derives. -/
def Takes {α : Type} (D : List (TokenKind Text) → α → Prop) (ts : List Item) (v : α)
    (r : List Item) : Prop :=
  ∃ us, ts = us ++ r ∧ D (plain us) v

/-- The trees of backtick literals are derivable. -/
def Faithful (ts : List Item) : Prop :=
  ∀ t ∈ ts, ∀ b, t.kind = .template b → ∀ e, b.outcome = .ok e →
    Derives .primary [.template b.body] e

/-- Every symbol derives what it reads from fewer than `n` tokens. -/
def SoundBelow (stop n : Nat) : Prop :=
  ∀ symbol ts e r, ts.length < n → Faithful ts → Reads (read stop symbol ts) e r →
    Takes (Derives symbol) ts e r

@[simp] theorem plain_append (us vs : List Item) : plain (us ++ vs) = plain us ++ plain vs :=
  List.map_append

@[simp] theorem plain_cons (t : Item) (us : List Item) :
    plain (t :: us) = t.kind.map Backtick.body :: plain us := rfl

@[simp] theorem plain_nil : plain [] = [] := rfl

theorem Faithful.tail {t : Item} (h : Faithful (t :: ts)) : Faithful ts :=
  fun u hu => h u (List.mem_cons_of_mem t hu)

theorem Faithful.right {us : List Item} (h : Faithful (us ++ ts)) : Faithful ts :=
  fun u hu => h u (List.mem_append_right us hu)

/-- Whether a token is a whole operand does not depend on what its literals
carry. -/
theorem atom_map {τ σ : Type} (f : τ → σ) (k : TokenKind τ) : atom (k.map f) = atom k := by
  cases k with
  | keyword word => cases word <;> rfl
  | _ => rfl

/-- Whether a token is a prefix operator does not depend on what its
literals carry. -/
theorem prefixed_map {τ σ : Type} (f : τ → σ) (k : TokenKind τ) :
    prefixed (k.map f) = prefixed k := by
  cases k with
  | keyword word => cases word <;> rfl
  | operator op =>
      cases op with
      | binary op => cases op <;> rfl
      | _ => rfl
  | _ => rfl

/-- What the reader takes for a name is one in the grammar. -/
theorem isName_of_nameOf? {t : Item} {name : Text} (h : nameOf? t = some name) :
    IsName (t.kind.map Backtick.body) name := by
  obtain ⟨k, p⟩ := t
  cases k <;> cases h
  · exact .keyword _
  · exact .name _

/-- What the reader takes for the key of an entry is one in the grammar. -/
theorem isMapKey_of_mapKeyOf? {t : Item} {key : MapKey} (h : mapKeyOf? t = some key) :
    IsMapKey (t.kind.map Backtick.body) key := by
  obtain ⟨k, p⟩ := t
  cases k <;> cases h
  · exact .bare (.keyword _)
  · exact .bare (.name _)
  · exact .quoted _

-- ========================================================== sequences

/-- Operands behind colons, and their trees. -/
def DerivesArgs (us : List (TokenKind Text)) (es : List Expr) : Prop :=
  ∃ as : List (List (TokenKind Text) × Expr), (∀ a ∈ as, Derives .cond a.1 a.2)
    ∧ us = introduced (as.map Prod.fst) ∧ es = as.map Prod.snd

/-- Expressions between commas, and their trees. -/
def DerivesItems (us : List (TokenKind Text)) (es : List Expr) : Prop :=
  ∃ as : List (List (TokenKind Text) × Expr), (∀ a ∈ as, Derives .pipe a.1 a.2)
    ∧ us = separated (as.map Prod.fst) ∧ es = as.map Prod.snd

/-- An entry whose key and value are what its tokens derive. -/
structure MapEntry.Derived (m : MapEntry) : Prop where
  key : IsMapKey m.token m.key
  value : ∀ ts, m.tokens? = some ts → Derives .pipe ts m.value
  short : m.tokens? = none → m.key.quoted = false ∧ m.value = .property .context m.key.name

/-- Entries of a map between commas, and their keys and values. -/
def DerivesEntries (us : List (TokenKind Text)) (m : List MapKey × List Expr) : Prop :=
  ∃ ms : List MapEntry, (∀ m ∈ ms, m.Derived) ∧ us = separated (ms.map MapEntry.tokens)
    ∧ m = (ms.map MapEntry.key, ms.map MapEntry.value)

/-- A comma stands between the first of several lists and the others. -/
theorem separated_cons {τ : Type} (us : List (TokenKind τ)) {uss : List (List (TokenKind τ))}
    (h : uss ≠ []) : separated (us :: uss) = us ++ .mark .comma :: separated uss := by
  cases uss with
  | nil => exact absurd rfl h
  | cons vs uss => simp [separated, List.intercalate]

/-- What the loop over the arguments of a pipe reads is derived. -/
theorem takes_of_pipeArgs (ih : SoundBelow stop n) {args : List Expr} (hlen : ts.length ≤ n)
    (hf : Faithful ts) (h : Trails (pipeArgs stop ts) args r) :
    Takes DerivesArgs ts args r := by
  induction hk : ts.length using Nat.strongRecOn generalizing ts args with
  | _ k rec =>
      subst hk
      rcases pipeArgs_iff.1 h with ⟨-, rfl, rfl⟩ | ⟨p, s, e, s', es, rfl, he, hes, rfl⟩
      · exact ⟨[], rfl, [], by simp, rfl, rfl⟩
      · have hlt : s.length < n := Nat.lt_of_succ_le hlen
        obtain ⟨us, rfl, hd⟩ := ih .cond s e s' hlt hf.tail he
        have hs' := he.length_lt
        obtain ⟨vs, rfl, as, has, hvs, rfl⟩ := rec s'.length
          (by simp only [List.length_cons, List.length_append]; omega)
          (by simp only [List.length_append] at hlt; omega) hf.tail.right hes rfl
        refine ⟨⟨.mark .colon, p⟩ :: us ++ vs, by simp, (plain us, e) :: as, ?_, ?_, rfl⟩
        · rintro a (_ | ⟨_, ha⟩)
          · exact hd
          · exact has a ha
        · simp [introduced, hvs, TokenKind.map]

/-- What the loop over items reads is derived, and their closing mark is
left. -/
theorem takes_of_items (ih : SoundBelow stop n) {closer : Mark} (hc : closer ≠ .comma)
    {es : List Expr} (hlen : ts.length < n) (hf : Faithful ts)
    (h : Reads (items stop closer ts) es r) :
    es ≠ [] ∧ ∃ p, Takes DerivesItems ts es (⟨.mark closer, p⟩ :: r) := by
  induction hk : ts.length using Nat.strongRecOn generalizing ts es with
  | _ k rec =>
      subst hk
      rcases (items_iff hc).1 h with ⟨e, p, s, es', he, hes, rfl⟩ | ⟨e, p, he, rfl⟩
      · obtain ⟨us, rfl, hd⟩ := ih .pipe _ e _ hlen hf he
        have hs : s.length < (us ++ ⟨.mark .comma, p⟩ :: s).length := by
          simp only [List.length_append, List.length_cons]
          omega
        obtain ⟨hne, q, vs, rfl, as, has, hvs, rfl⟩ :=
          rec s.length hs (by omega) hf.right.tail hes rfl
        refine ⟨by simp, q, us ++ ⟨.mark .comma, p⟩ :: vs, by simp,
          (plain us, e) :: as, ?_, ?_, rfl⟩
        · rintro a (_ | ⟨_, ha⟩)
          · exact hd
          · exact has a ha
        · rw [List.map_cons, separated_cons _ (by simpa using hne), ← hvs]
          simp [TokenKind.map]
      · obtain ⟨us, rfl, hd⟩ := ih .pipe _ e _ hlen hf he
        refine ⟨by simp, p, us, rfl, [(plain us, e)], ?_, ?_, rfl⟩
        · simpa using hd
        · simp [separated, List.intercalate]

/-- What is read between brackets is derived, and their closing mark is
left. -/
theorem takes_of_sequence (ih : SoundBelow stop n) {closer : Mark} (hc : closer ≠ .comma)
    {es : List Expr} (hlen : ts.length < n) (hf : Faithful ts)
    (h : Reads (sequence stop closer ts) es r) :
    ∃ p, Takes DerivesItems ts es (⟨.mark closer, p⟩ :: r) := by
  rcases sequence_iff.1 h with ⟨p, rfl, rfl⟩ | ⟨-, h⟩
  · exact ⟨p, [], rfl, [], by simp, rfl, rfl⟩
  · exact (takes_of_items ih hc hlen hf h).2

/-- The value of an entry is derived, or stands for the key alone. -/
theorem takes_of_entryValue (ih : SoundBelow stop n) {t : Item} {key : MapKey} {value : Expr}
    (hk : mapKeyOf? t = some key) (hlen : ts.length ≤ n) (hf : Faithful ts)
    (h : Trails (entryValue stop key ts) value r) :
    ∃ us m, ts = us ++ r ∧ plain (t :: us) = MapEntry.tokens m ∧ m.Derived ∧ m.key = key
      ∧ m.value = value := by
  have hkey := isMapKey_of_mapKeyOf? hk
  rcases entryValue_iff.1 h with ⟨p, s, rfl, hv⟩ | ⟨-, hq, rfl, rfl⟩
  · obtain ⟨us, rfl, hd⟩ := ih .pipe s value r (Nat.lt_of_succ_le hlen) hf.tail hv
    refine ⟨⟨.mark .colon, p⟩ :: us, ⟨_, key, some (plain us), value⟩, rfl, rfl,
      ⟨hkey, ?_, nofun⟩, rfl, rfl⟩
    rintro vs ⟨⟩
    exact hd
  · exact ⟨[], ⟨_, key, none, _⟩, rfl, rfl, ⟨hkey, nofun, fun _ => ⟨hq, rfl⟩⟩, rfl, rfl⟩

/-- What the loop over the entries of a map reads is derived. -/
theorem takes_of_entries (ih : SoundBelow stop n) {m : List MapKey × List Expr}
    (hlen : ts.length ≤ n) (hf : Faithful ts) (h : Reads (entries stop ts) m r) :
    m.1 ≠ [] ∧ ∃ p, Takes DerivesEntries ts m (⟨.mark .closeBrace, p⟩ :: r) := by
  induction hk : ts.length using Nat.strongRecOn generalizing ts m with
  | _ k rec =>
      subst hk
      obtain ⟨t, s, key, value, rfl, hkey, h⟩ := entries_iff.1 h
      have hs : s.length ≤ n := Nat.le_of_succ_le hlen
      rcases h with ⟨p, s', more, hv, hmore, rfl⟩ | ⟨p, hv, rfl⟩
      · obtain ⟨us, m, rfl, hus, hm, rfl, rfl⟩ := takes_of_entryValue ih hkey hs hf.tail hv
        have hs' : s'.length < (t :: (us ++ ⟨.mark .comma, p⟩ :: s')).length := by
          simp only [List.length_cons, List.length_append]
          omega
        obtain ⟨hne, q, vs, rfl, ms, hms, hvs, rfl⟩ :=
          rec s'.length hs' (by omega) hf.tail.right.tail hmore rfl
        refine ⟨by simp, q, t :: us ++ ⟨.mark .comma, p⟩ :: vs, by simp, m :: ms, ?_, ?_, rfl⟩
        · rintro a (_ | ⟨_, ha⟩)
          · exact hm
          · exact hms a ha
        · rw [List.map_cons, separated_cons _ (by simpa using hne), ← hvs, ← hus]
          simp [TokenKind.map]
      · obtain ⟨us, m, rfl, hus, hm, rfl, rfl⟩ := takes_of_entryValue ih hkey hs hf.tail hv
        refine ⟨by simp, p, t :: us, rfl, [m], ?_, ?_, rfl⟩
        · simpa using hm
        · rw [hus]
          simp [separated, List.intercalate]

-- ============================================================ symbols

/-- One case for each form of a primary: what is read is derived. -/
theorem takes_of_primary (ih : SoundBelow stop ts.length) {e : Expr} (hf : Faithful ts)
    (h : Reads (primary stop ts) e r) : Takes (Derives .primary) ts e r := by
  obtain ⟨k, p, s, rfl, hcase⟩ := primary_iff.1 h
  have hs : s.length < (⟨k, p⟩ :: s : List Item).length := Nat.lt_succ_self _
  rcases hcase with ⟨hk, rfl⟩ | ⟨b, rfl, hb, rfl⟩ | ⟨q, rfl, he⟩ | ⟨es, rfl, hes, rfl⟩
    | ⟨keys, values, rfl, hm, rfl⟩
  · exact ⟨[⟨k, p⟩], rfl, .atom ((atom_map _ k).trans hk)⟩
  · exact ⟨[⟨.template b, p⟩], rfl, hf _ List.mem_cons_self b rfl e hb⟩
  · obtain ⟨us, rfl, hd⟩ := ih .pipe s e _ hs hf.tail he
    refine ⟨⟨.mark .openParen, p⟩ :: us ++ [⟨.mark .closeParen, q⟩], by simp, ?_⟩
    simpa [TokenKind.map] using hd.group
  · obtain ⟨q, us, rfl, as, has, hus, rfl⟩ := takes_of_sequence ih (by decide) hs hf.tail hes
    refine ⟨⟨.mark .openBracket, p⟩ :: us ++ [⟨.mark .closeBracket, q⟩], by simp, ?_⟩
    simpa [TokenKind.map, hus] using Derives.array has
  · rcases mapBody_iff.1 hm with ⟨q, rfl, hnil⟩ | ⟨-, hm⟩
    · cases hnil
      refine ⟨[⟨.mark .openBrace, p⟩, ⟨.mark .closeBrace, q⟩], rfl, ?_⟩
      exact @Derives.map [] (by simp) (by simp) (by simp)
    · obtain ⟨-, q, us, rfl, ms, hms, hus, hmap⟩ := takes_of_entries ih (Nat.le_of_lt hs) hf.tail hm
      cases hmap
      refine ⟨⟨.mark .openBrace, p⟩ :: us ++ [⟨.mark .closeBrace, q⟩], by simp, ?_⟩
      simpa [TokenKind.map, hus] using Derives.map (fun m h => (hms m h).key)
        (fun m h => (hms m h).value) (fun m h => (hms m h).short)

/-- One turn on a receiver adds its tokens to those of the receiver. -/
theorem derives_of_accessStep (ih : SoundBelow stop n) {receiver x : Expr}
    {us : List (TokenKind Text)} (hlen : ts.length ≤ n) (hf : Faithful ts)
    (h : AccessStep stop receiver ts x r) (hd : Derives .access us receiver) :
    r.length < ts.length ∧ Takes (fun vs e => Derives .access (us ++ vs) e) ts x r := by
  cases h with
  | @property p t s name hn =>
      refine ⟨by simp only [List.length_cons]; omega, [⟨.mark .dot, p⟩, t], rfl, ?_⟩
      exact hd.property (isName_of_nameOf? hn)
  | @safeProperty p t s name hn =>
      refine ⟨by simp only [List.length_cons]; omega, [⟨.operator .optional, p⟩, t], rfl, ?_⟩
      exact hd.safeProperty (isName_of_nameOf? hn)
  | @index p s s' key hk =>
      obtain ⟨q, hk⟩ := keyTail_iff.1 hk
      obtain ⟨vs, rfl, hkey⟩ := ih .pipe s key _ hlen hf.tail hk
      refine ⟨by simp only [List.length_cons, List.length_append]; omega,
        ⟨.mark .openBracket, p⟩ :: vs ++ [⟨.mark .closeBracket, q⟩], by simp, ?_⟩
      simpa [TokenKind.map] using hd.index hkey
  | @safeIndex p q s s' key hk =>
      obtain ⟨q', hk⟩ := keyTail_iff.1 hk
      obtain ⟨vs, rfl, hkey⟩ := ih .pipe s key _ (Nat.le_of_succ_le hlen) hf.tail.tail hk
      refine ⟨by simp only [List.length_cons, List.length_append]; omega,
        ⟨.operator .optional, p⟩ :: ⟨.mark .openBracket, q⟩ :: vs ++ [⟨.mark .closeBracket, q'⟩],
        by simp, ?_⟩
      simpa [TokenKind.map] using hd.safeIndex hkey
  | @call p s s' args ha =>
      obtain ⟨q, vs, rfl, as, has, hvs, rfl⟩ := takes_of_sequence ih (by decide) hlen hf.tail ha
      refine ⟨by simp only [List.length_cons, List.length_append]; omega,
        ⟨.mark .openParen, p⟩ :: vs ++ [⟨.mark .closeParen, q⟩], by simp, ?_⟩
      simpa [TokenKind.map, hvs] using hd.call has
  | @safeCall p q s s' args ha =>
      obtain ⟨q', vs, rfl, as, has, hvs, rfl⟩ :=
        takes_of_sequence ih (by decide) (Nat.le_of_succ_le hlen) hf.tail.tail ha
      refine ⟨by simp only [List.length_cons, List.length_append]; omega,
        ⟨.operator .optional, p⟩ :: ⟨.mark .openParen, q⟩ :: vs ++ [⟨.mark .closeParen, q'⟩],
        by simp, ?_⟩
      simpa [TokenKind.map, hvs] using hd.safeCall has
  | @assertion p s =>
      exact ⟨Nat.lt_succ_self _, [⟨.operator .bang, p⟩], rfl, hd.assertion⟩

/-- One more operator adds itself and its right operand. -/
theorem derives_of_binaryStep {level : Nat} (ih : SoundBelow stop n) {left x : Expr}
    {us : List (TokenKind Text)} (hlen : ts.length ≤ n) (hf : Faithful ts)
    (h : BinaryStep stop level left ts x r) (hd : Derives (.binary (level + 1)) us left) :
    r.length < ts.length
      ∧ Takes (fun vs e => Derives (.binary (level + 1)) (us ++ vs) e) ts x r := by
  obtain @⟨op, p, s, s', right, hop, hr⟩ := h
  obtain ⟨vs, rfl, hright⟩ := ih (.binary level) s right r hlen hf.tail hr
  refine ⟨by simp only [List.length_cons, List.length_append]; omega,
    ⟨.operator (.binary op), p⟩ :: vs, rfl, ?_⟩
  exact hd.join hop hright

/-- One more pipe adds its name and its arguments. -/
theorem derives_of_pipeStep (ih : SoundBelow stop n) {input x : Expr}
    {us : List (TokenKind Text)} (hlen : ts.length ≤ n) (hf : Faithful ts)
    (h : PipeStep stop input ts x r) (hd : Derives .pipe us input) :
    r.length < ts.length ∧ Takes (fun vs e => Derives .pipe (us ++ vs) e) ts x r := by
  obtain @⟨p, t, s, s', name, args, hn, ha⟩ := h
  have hs : s.length ≤ n := by
    simp only [List.length_cons] at hlen
    omega
  obtain ⟨vs, rfl, as, has, hvs, rfl⟩ := takes_of_pipeArgs ih hs hf.tail.tail ha
  refine ⟨by simp only [List.length_cons, List.length_append]; omega,
    ⟨.operator .bar, p⟩ :: t :: vs, rfl, ?_⟩
  simpa [TokenKind.map, hvs] using hd.apply (isName_of_nameOf? hn) has

/-- A loop adds the tokens of its turns in order, when each turn adds its
own. -/
theorem takes_of_loop {Step Loop : Expr → List Item → Expr → List Item → Prop}
    {D : List (TokenKind Text) → Expr → Prop}
    (hloop : ∀ {e ts v r}, Loop e ts v r → (v = e ∧ r = ts) ∨ ∃ x s, Step e ts x s ∧ Loop x s v r)
    (hstep : ∀ {e ts x r us}, ts.length ≤ n → Faithful ts → Step e ts x r → D us e →
      r.length < ts.length ∧ Takes (fun vs x => D (us ++ vs) x) ts x r)
    {e v : Expr} {us : List (TokenKind Text)} (hlen : ts.length ≤ n) (hf : Faithful ts)
    (h : Loop e ts v r) (hd : D us e) : Takes (fun vs v => D (us ++ vs) v) ts v r := by
  induction hk : ts.length using Nat.strongRecOn generalizing ts e us with
  | _ k rec =>
      subst hk
      rcases hloop h with ⟨rfl, rfl⟩ | ⟨x, s, hturn, hrest⟩
      · exact ⟨[], rfl, by simpa using hd⟩
      · obtain ⟨hlt, vs, rfl, hx⟩ := hstep hlen hf hturn hd
        obtain ⟨ws, rfl, hv⟩ := rec s.length hlt (by omega) hf.right hrest hx rfl
        exact ⟨vs ++ ws, by simp, by simpa using hv⟩

/-- A primary and the accesses behind it are derived. -/
theorem takes_of_access (ih : SoundBelow stop ts.length) {e : Expr} (hf : Faithful ts)
    (h : Reads (access stop ts) e r) : Takes (Derives .access) ts e r := by
  obtain ⟨receiver, s, hp, ht⟩ := access_iff.1 h
  obtain ⟨us, rfl, hd⟩ := takes_of_primary ih hf hp
  have hs : s.length ≤ (us ++ s).length := by simp
  obtain ⟨vs, rfl, he⟩ := takes_of_loop
    (fun h => (accessTail_iff.1 h).imp And.right id) (derives_of_accessStep ih) hs hf.right ht
    hd.access
  exact ⟨us ++ vs, by simp, by simpa using he⟩

/-- A unary expression is derived, when what is shorter is. -/
theorem takes_of_unary (ih : SoundBelow stop ts.length) {e : Expr} (hf : Faithful ts)
    (h : Reads (unary stop ts) e r) : Takes (Derives .unary) ts e r := by
  rcases unary_iff.1 h with ⟨k, p, s, make, x, rfl, hk, hx, rfl⟩ | ⟨-, ha⟩
  · obtain ⟨us, rfl, hd⟩ := ih .unary s x r (Nat.lt_succ_self _) hf.tail hx
    exact ⟨⟨k, p⟩ :: us, rfl, .front ((prefixed_map _ k).trans hk) hd⟩
  · obtain ⟨us, rfl, hd⟩ := takes_of_access ih hf ha
    exact ⟨us, rfl, hd.unary⟩

/-- A power is derived, its right operand by the induction. -/
theorem takes_of_power (ih : SoundBelow stop ts.length) {e : Expr} (hf : Faithful ts)
    (h : Reads (power stop ts) e r) : Takes (Derives (.binary 0)) ts e r := by
  rcases power_iff.1 h with ⟨hb, -⟩ | ⟨base, p, s, exponent, hb, he, rfl⟩
  · obtain ⟨us, rfl, hd⟩ := takes_of_unary ih hf hb
    exact ⟨us, rfl, hd.power⟩
  · obtain ⟨us, rfl, hd⟩ := takes_of_unary ih hf hb
    have hs : s.length < (us ++ ⟨.operator (.binary .pow), p⟩ :: s).length := by
      simp only [List.length_append, List.length_cons]
      omega
    rw [← binary_zero] at he
    obtain ⟨vs, rfl, hd'⟩ := ih (.binary 0) s exponent r hs hf.right.tail he
    refine ⟨us ++ ⟨.operator (.binary .pow), p⟩ :: vs, by simp, ?_⟩
    simpa [TokenKind.map] using hd.raise hd'

/-- A binary expression is derived at every level. -/
theorem takes_of_binary (ih : SoundBelow stop ts.length) {level : Nat} {e : Expr}
    (hf : Faithful ts) (h : Reads (binary stop level ts) e r) :
    Takes (Derives (.binary level)) ts e r := by
  induction level generalizing e r with
  | zero =>
      rw [binary_zero] at h
      exact takes_of_power ih hf h
  | succ level rec =>
      obtain ⟨left, s, hl, ht⟩ := binary_succ_iff.1 h
      obtain ⟨us, rfl, hd⟩ := rec hl
      have hs : s.length ≤ (us ++ s).length := by simp
      obtain ⟨vs, rfl, he⟩ := takes_of_loop
        (fun h => (binaryTail_iff.1 h).imp And.right id) (derives_of_binaryStep ih) hs hf.right ht
        hd.level
      exact ⟨us ++ vs, by simp, by simpa using he⟩

/-- A conditional is derived, its branches by the induction. -/
theorem takes_of_cond (ih : SoundBelow stop ts.length) {e : Expr} (hf : Faithful ts)
    (h : Reads (cond stop ts) e r) : Takes (Derives .cond) ts e r := by
  rcases cond_iff.1 h with ⟨hb, -⟩ | ⟨test, p, s, yes, q, v, no, ht, hy, hn, rfl⟩
  · obtain ⟨us, rfl, hd⟩ := takes_of_binary ih hf hb
    exact ⟨us, rfl, hd.cond⟩
  · obtain ⟨us, rfl, hd⟩ := takes_of_binary ih hf ht
    have hs : s.length < (us ++ ⟨.operator .question, p⟩ :: s).length := by
      simp only [List.length_append, List.length_cons]
      omega
    obtain ⟨vs, rfl, hyes⟩ := ih .pipe s yes _ hs hf.right.tail hy
    have hv : v.length
        < (us ++ ⟨.operator .question, p⟩ :: (vs ++ ⟨.mark .colon, q⟩ :: v)).length := by
      simp only [List.length_append, List.length_cons]
      omega
    obtain ⟨ws, rfl, hno⟩ := ih .pipe v no r hv hf.right.tail.right.tail hn
    refine ⟨us ++ ⟨.operator .question, p⟩ :: vs ++ ⟨.mark .colon, q⟩ :: ws, by simp, ?_⟩
    simpa [TokenKind.map] using hd.choice hyes hno

/-- A pipe is derived: its input first, then one step after the other. -/
theorem takes_of_pipe (ih : SoundBelow stop ts.length) {e : Expr} (hf : Faithful ts)
    (h : Reads (pipe stop ts) e r) : Takes (Derives .pipe) ts e r := by
  obtain ⟨input, s, hi, ht⟩ := pipe_iff.1 h
  obtain ⟨us, rfl, hd⟩ := takes_of_cond ih hf hi
  have hs : s.length ≤ (us ++ s).length := by simp
  obtain ⟨vs, rfl, he⟩ := takes_of_loop
    (fun h => (pipeTail_iff.1 h).imp And.right id) (derives_of_pipeStep ih) hs hf.right ht
    hd.pipe
  exact ⟨us ++ vs, by simp, by simpa using he⟩

/-- The tokens that a symbol reads derive its tree. -/
theorem derives_of_reads (symbol : Symbol) {e : Expr} (hf : Faithful ts)
    (h : Reads (read stop symbol ts) e r) : Takes (Derives symbol) ts e r := by
  suffices hall : ∀ n, SoundBelow stop n from
    hall (ts.length + 1) symbol ts e r (Nat.lt_succ_self _) hf h
  intro n
  induction n with
  | zero => exact fun symbol ts e r hlen => absurd hlen (Nat.not_lt_zero _)
  | succ n ih =>
      intro symbol ts e r hlen hf h
      -- fewer tokens than these are fewer than `n`
      have ih : SoundBelow stop ts.length := fun symbol us e r hus =>
        ih symbol us e r (Nat.lt_of_lt_of_le hus (Nat.le_of_lt_succ hlen))
      cases symbol with
      | primary => exact takes_of_primary ih hf h
      | access => exact takes_of_access ih hf h
      | unary => exact takes_of_unary ih hf h
      | binary level => exact takes_of_binary ih hf h
      | cond => exact takes_of_cond ih hf h
      | pipe => exact takes_of_pipe ih hf h

-- ============================================================== texts

/-- A text has tokens, and they derive a tree; without tokens the tree is
the empty expression. -/
def Denotes (t : Text) (e : Expr) : Prop :=
  ∃ ks, kindsOf t = .ok ks ∧ (ks = [] → e = .empty) ∧ (ks ≠ [] → Derives .pipe ks e)

/-- The parts of a backtick body and the trees of their code. -/
theorem exists_fillings {start : Nat} {parts : List Substitution} {items : List Expr}
    (hread : ∀ part ∈ parts, ∀ p e, Expr.parseAt p part.code = .ok e → Denotes part.code e)
    (h : (parts.mapM fun part => Expr.parseAt (start + part.offset) part.code) = .ok items) :
    ∃ fillings : List Filling, fillings.map Filling.part = parts
      ∧ fillings.map Filling.value = items
      ∧ ∀ f ∈ fillings, kindsOf f.part.code = .ok f.tokens ∧ (f.tokens = [] → f.value = .empty)
        ∧ (f.tokens ≠ [] → Derives .pipe f.tokens f.value) := by
  induction parts generalizing items with
  | nil =>
      cases h
      exact ⟨[], rfl, rfl, by simp⟩
  | cons part parts ih =>
      rw [List.mapM_cons] at h
      obtain ⟨e, he, h⟩ := bind_eq_ok.1 h
      obtain ⟨es, hes, h⟩ := bind_eq_ok.1 h
      cases h
      obtain ⟨ks, hks, hd⟩ := hread part List.mem_cons_self _ e he
      obtain ⟨fs, hparts, hvalues, hfs⟩ :=
        ih (fun q hq => hread q (List.mem_cons_of_mem part hq)) hes
      refine ⟨⟨part, ks, e⟩ :: fs, by rw [List.map_cons, hparts],
        by rw [List.map_cons, hvalues], ?_⟩
      rintro f (_ | ⟨_, hf⟩)
      · exact ⟨hks, hd⟩
      · exact hfs f hf

/-- A backtick body derives its tree, when the code in it does. -/
theorem derives_of_readBody {start : Nat} {raw : Text} {e : Expr}
    (hread : ∀ part ∈ (BacktickBody.split 0 raw).parts, ∀ p e,
      Expr.parseAt p part.code = .ok e → Denotes part.code e)
    (h : Expr.readBody start raw = .ok e) : Derives .primary [.template raw] e := by
  obtain ⟨items, hitems, h⟩ := bind_eq_ok.1 h
  obtain ⟨fillings, hparts, rfl, hfs⟩ := exists_fillings hread hitems
  unfold Expr.ofBody at h
  split at h
  · cases h
  · next last hlast =>
      cases h
      have hsplit : BacktickBody.split 0 raw = ⟨fillings.map Filling.part, .ok last⟩ := by
        rw [hparts, ← hlast]
      rw [← hparts, List.map_map]
      exact .template hsplit (fun f hf => (hfs f hf).1) (fun f hf => (hfs f hf).2.1)
        (fun f hf => (hfs f hf).2.2)

/-- The items of tokens are those tokens again. -/
theorem plain_map_toItem (ts : List (Token Text)) :
    plain (ts.map Expr.toItem) = ts.map Token.kind := by
  rw [plain, List.map_map]
  refine List.map_congr_left fun t _ => ?_
  obtain ⟨k, p⟩ := t
  cases k <;> rfl

/-- The tokens of a text that is read derive its tree. -/
theorem denotes_of_parseAt {start : Nat} {t : Text} {e : Expr}
    (h : Expr.parseAt start t = .ok e) : Denotes t e := by
  induction hk : t.length using Nat.strongRecOn generalizing start t e with
  | _ k rec =>
      subst hk
      rw [Expr.parseAt_eq] at h
      obtain ⟨ts, hts, h⟩ := bind_eq_ok.1 h
      refine ⟨ts.map Token.kind, kindsOf_eq_ok hts, ?_⟩
      -- the code in a backtick literal is shorter than the text around it
      have hf : Faithful (ts.map Expr.toItem) := by
        intro item hitem b hb e he
        obtain ⟨⟨k, p⟩, hmem, rfl⟩ := List.mem_map.1 hitem
        cases k <;> cases hb
        next raw =>
          refine derives_of_readBody (fun part hpart q e h => ?_) he
          have hraw : raw.length < t.length := template_length_lt hts hmem
          have hcode : part.code.length < raw.length := BacktickBody.code_length_lt hpart
          exact rec part.code.length (by omega) h rfl
      rcases whole_eq_ok.1 h with ⟨hnil, rfl⟩ | h
      · rw [List.map_eq_nil_iff] at hnil
        subst hnil
        exact ⟨fun _ => rfl, fun hne => absurd rfl hne⟩
      · obtain ⟨us, hus, hd⟩ := derives_of_reads .pipe hf h
        rw [List.append_nil] at hus
        rw [← hus, plain_map_toItem] at hd
        refine ⟨fun hnil => ?_, fun _ => hd⟩
        have hlt := h.length_lt
        rw [List.map_eq_nil_iff] at hnil
        subst hnil
        simp at hlt

-- =========================================================== bindings

/-- A blank piece is a run of blanks. -/
theorem extent_eq_blank {c : CodePoint} {cs : Text} (h : (Lexeme.extent c cs).1 = .blank) :
    c.isBlank = true ∧ (Lexeme.extent c cs).2 = (cs.takeWhile CodePoint.isBlank).length := by
  unfold Lexeme.extent at h ⊢
  by_cases hc : c.isBlank
  · rw [if_pos hc]
    exact ⟨hc, rfl⟩
  · rw [if_neg hc] at h
    repeat' split at h
    all_goals cases h

/-- Only blank pieces have no token. -/
theorem kind_eq_blank_of_token? {position : Nat} {l : Lexeme} (hraw : l.raw ≠ [])
    (h : l.token? position = .ok none) : l.kind = .blank := by
  obtain ⟨kind, raw⟩ := l
  cases kind with
  | blank => rfl
  | number =>
      simp only [Lexeme.token?] at h
      cases hn : Lexeme.numeral raw <;> rw [hn] at h <;> cases h
  | word =>
      simp only [Lexeme.token?] at h
      split at h <;> cases h
  | stray =>
      cases raw with
      | nil => exact absurd rfl hraw
      | cons c cs =>
          simp only [Lexeme.token?] at h
          split at h <;> cases h
  | _ => cases h

/-- A text without tokens is blank. -/
theorem isBlank_of_tokenize_nil {start : Nat} {t : Text} (h : tokenize start t = .ok []) :
    Text.isBlank t = true := by
  unfold tokenize at h
  fun_induction Lexeme.split t generalizing start with
  | case1 => rfl
  | case2 c cs ih =>
      obtain ⟨first, hfirst, h⟩ := bind_eq_ok.1 h
      obtain ⟨rest, hrest, h⟩ := bind_eq_ok.1 h
      obtain ⟨hnone, hnil⟩ := List.append_eq_nil_iff.1 (Except.ok.inj h)
      rw [Option.toList_eq_nil_iff] at hnone
      subst hnone hnil
      obtain ⟨hc, hn⟩ := extent_eq_blank (kind_eq_blank_of_token? (List.cons_ne_nil _ _) hfirst)
      have hcs := ih hrest
      -- the run of blanks, and what follows it
      have hcut := List.takeWhile_append_dropWhile (p := CodePoint.isBlank) (l := cs)
      have hdrop : cs.drop (cs.takeWhile CodePoint.isBlank).length
          = cs.dropWhile CodePoint.isBlank := by
        rw [← hcut, List.drop_left' (congrArg List.length (by rw [hcut])), hcut]
      rw [hn, hdrop, Text.isBlank] at hcs
      rw [Text.isBlank, List.all_cons, hc, Bool.true_and, ← hcut, List.all_append, hcs,
        Bool.and_true]
      exact List.all_takeWhile

/-- What a binding that is not blank says is derivable: the tokens of its
text, all of them and in order, are an expression, and the tree that is
read is the tree of that derivation. -/
theorem derives_of_parseBinding {t : Text} {x : Expr} (hblank : Text.isBlank t = false)
    (h : Expr.parseBinding t = .ok x) :
    ∃ ts e, tokenize 0 t = .ok ts ∧ x = .sourced e t ∧ Derives .pipe (ts.map Token.kind) e := by
  obtain ⟨e, he, hx⟩ := bind_eq_ok.1 h
  cases hx
  obtain ⟨ts, hts, -⟩ := bind_eq_ok.1 (Expr.parseAt_eq 0 t ▸ he)
  obtain ⟨ks, hks, -, hd⟩ := denotes_of_parseAt he
  rw [kindsOf_eq_ok hts] at hks
  cases hks
  refine ⟨ts, e, hts, rfl, hd ?_⟩
  intro hnil
  rw [List.map_eq_nil_iff] at hnil
  subst hnil
  rw [isBlank_of_tokenize_nil hts] at hblank
  cases hblank

/-- A safe read with a call and an assertion after it, piped with a map
whose entry is a bare name: `a?.b(c,[1])!|p:{d}`. -/
theorem derives_of_parseBinding_chain :
    let t : Text := ['a', '?', '.', 'b', '(', 'c', ',', '[', '1', ']', ')', '!', '|', 'p', ':', '{',
      'd', '}']
    let e : Expr := .pipe
      (.assertion (.call (.safeProperty (.property .context ['a']) ['b'])
        [.property .context ['c'], .array [.literal (.number (.integer 1))]]))
      ['p'] [.map [⟨['d'], false⟩] [.property .context ['d']]]
    Text.isBlank t = false ∧ Expr.parseBinding t = .ok (.sourced e t)
      ∧ ∃ ts, tokenize 0 t = .ok ts ∧ Derives .pipe (ts.map Token.kind) e := by
  intro t e
  have hblank : Text.isBlank t = false := by decide
  have hread : Expr.parseBinding t = .ok (.sourced e t) := by
    unfold Expr.parseBinding
    rw [Expr.parseAt_eq]
    cbv
  refine ⟨hblank, hread, ?_⟩
  obtain ⟨ts, e', hts, he, hd⟩ := derives_of_parseBinding hblank hread
  cases he
  exact ⟨ts, hts, hd⟩

end KeyHarvest.Grammar
