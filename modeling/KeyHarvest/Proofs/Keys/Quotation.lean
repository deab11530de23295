/-
Where the quotes of a key are. A key is found between two quotes, but the
two need not be alike, and of the payload only what stands behind its first
code point is free of quotes. So a payload with the other quote in it, an
apostrophe between double quotes say, is not taken as a whole: the key that
is found ends in front of the apostrophe (`KeyParts.cut`). And the first
code point of a payload is taken whatever it is, a quote as well.
-/
import KeyHarvest.Proofs.Keys.Scanner

namespace KeyHarvest

namespace QuotedKeys

open Text (Scalar)

variable {space : Text}

/-- No quote is part of a name. -/
theorem isQuote_of_isNameChar {c : CodePoint} (h : isNameChar c = true) : isQuote c = false := by
  cases hquote : isQuote c with
  | false => rfl
  | true =>
      have hc : c = '\'' ∨ c = '"' := by simpa [isQuote] using hquote
      rcases hc with rfl | rfl <;> exact absurd h (by decide)

/-- A key whose payload holds no quote behind its first code point holds
none at all, or that one. -/
theorem KeyParts.isQuote_key_iff {k : KeyParts} (hspace : ∀ c ∈ space, isQuote c = false)
    (hbody : ∀ c ∈ k.body, isQuote c = false) :
    (∀ c ∈ k.key space, isQuote c = false) ↔ isQuote k.first = false := by
  have hname : ∀ c ∈ k.name, isQuote c = false := fun c hc =>
    isQuote_of_isNameChar (k.isNameChar_of_mem c hc)
  have hdot : isQuote '.' = false := by decide
  have hbar : isQuote '|' = false := by decide
  simp only [key, List.forall_mem_append, List.forall_mem_cons]
  exact ⟨fun h => h.2.2.2.2.1, fun h => ⟨hspace, hdot, hname, hbar, h, hbody⟩⟩

/-- The key up to the first quote of its payload, the first code point of
the payload left out of account. -/
def KeyParts.cut (k : KeyParts) : KeyParts where
  name := k.name
  first := k.first
  body := k.body.takeWhile (!isQuote ·)
  name_ne_nil := k.name_ne_nil
  isNameChar_of_mem := k.isNameChar_of_mem
  first_ne_plus := k.first_ne_plus
  ne_plus_of_mem c hc := k.ne_plus_of_mem c ((List.takeWhile_sublist _).mem hc)

/-- No quote is left in a key that is cut short. -/
theorem KeyParts.isQuote_of_mem_cut {k : KeyParts} : ∀ c ∈ k.cut.body, isQuote c = false :=
  fun c hc => by simpa using List.mem_takeWhile_imp hc

/-- A key that is cut short begins the whole key. -/
theorem KeyParts.key_cut_prefix (k : KeyParts) : k.cut.key space <+: k.key space := by
  refine (List.prefix_append_right_inj space).2 (List.cons_prefix_cons.2 ⟨rfl, ?_⟩)
  refine (List.prefix_append_right_inj k.name).2 (List.cons_prefix_cons.2 ⟨rfl, ?_⟩)
  exact List.cons_prefix_cons.2 ⟨rfl, List.takeWhile_prefix _⟩

/-- A key is cut short exactly when a quote stands in it. -/
theorem KeyParts.key_cut_eq_iff {k : KeyParts} :
    k.cut.key space = k.key space ↔ ∀ c ∈ k.body, isQuote c = false := by
  have hbodies : k.cut.key space = k.key space ↔ k.cut.body = k.body := by simp [key, cut]
  rw [hbodies, cut, List.takeWhile_eq_self_iff]
  simp

/-- Between two quotes stands a key up to the first quote of its payload,
and nothing is left behind it when the payload has none. -/
theorem exists_stands_cut (space : Text) {quote : CodePoint} (k : KeyParts)
    (hquote : isQuote quote = true) :
    ∃ rest, Stands space (quote :: (k.key space ++ [quote])) (k.cut.key space) rest
      ∧ ((∀ c ∈ k.body, isQuote c = false) → rest = []) := by
  have hsplit : k.key space = k.cut.key space ++ k.body.dropWhile (!isQuote ·) := by
    simp [KeyParts.key, KeyParts.cut]
  rw [hsplit, List.append_assoc]
  cases hdrop : k.body.dropWhile (!isQuote ·) with
  | nil => exact ⟨[], .between k.cut hquote hquote k.isQuote_of_mem_cut, fun _ => rfl⟩
  | cons closing rest =>
      have hclosing : isQuote closing = true := by
        have hhead := List.head?_dropWhile_not (!isQuote ·) k.body
        rw [hdrop] at hhead
        simpa using hhead
      refine ⟨rest ++ [quote], .between k.cut hquote hclosing k.isQuote_of_mem_cut, fun hbody => ?_⟩
      have hmem : closing ∈ k.body := (List.dropWhile_sublist _).mem (hdrop ▸ List.mem_cons_self)
      rw [hbody closing hmem] at hclosing
      cases hclosing

/-- Every key found stands between two quotes of either kind, and no quote
is in it except perhaps as the first code point of its payload. A key that
is written between two quotes, and that no marker excludes, is found up to
the first quote behind the first code point of its payload, and it is found
as it is, and nothing else, when there is no such quote and only then. The
sources are those that can be encoded, and so are the keys. -/
theorem quotation_exact (q : QuotedKeys) (hspace : ∀ c ∈ q.space, isQuote c = false) :
    (∀ source, Scalar source → ∀ key ∈ (q.extract source).keys, Scalar key ∧
      ∃ before opening closing after, ∃ k : KeyParts,
        source = before ++ opening :: (key ++ closing :: after)
        ∧ isQuote opening = true ∧ isQuote closing = true
        ∧ key = k.key q.space ∧ (∀ c ∈ k.body, isQuote c = false)
        ∧ ((∀ c ∈ key, isQuote c = false) ↔ isQuote k.first = false))
    ∧ ∀ quote, isQuote quote = true → ∀ k : KeyParts, Scalar (k.key q.space) →
      (∀ marker ∈ q.excluded, ¬ marker <:+: k.key q.space) →
        (q.extract (quote :: (k.key q.space ++ [quote]))).keys.head? = some (k.cut.key q.space)
        ∧ ((q.extract (quote :: (k.key q.space ++ [quote]))).keys = [k.key q.space]
            ↔ ∀ c ∈ k.body, isQuote c = false) := by
  constructor
  · -- every key that is found stands between quotes
    intro source hsource key hkey
    refine ⟨scalar_of_mem_extract hsource hkey, ?_⟩
    rw [extract_keys_eq, List.mem_eraseDups, List.mem_filter] at hkey
    obtain ⟨before, t, rest, rfl, hstands⟩ := exists_stands_of_mem_scan hkey.1
    cases hstands with
    | between k hopening hclosing hbody =>
        exact ⟨before, _, _, rest, k, rfl, hopening, hclosing, rfl, hbody,
          k.isQuote_key_iff hspace hbody⟩
  · -- a key that is written between quotes is found up to the first quote in it
    intro quote hquote k _ hexcluded
    obtain ⟨rest, hstands, hrest⟩ := exists_stands_cut q.space k hquote
    have hkept : decide (∀ marker ∈ q.excluded, ¬ marker <:+: k.cut.key q.space) = true :=
      decide_eq_true fun marker hmarker hin =>
        hexcluded marker hmarker (hin.trans k.key_cut_prefix.isInfix)
    have hkeys := extract_keys_eq q (quote :: (k.key q.space ++ [quote]))
    rw [scan_of_stands hstands, List.filter_cons, if_pos hkept, List.eraseDups_cons] at hkeys
    have hhead : (q.extract (quote :: (k.key q.space ++ [quote]))).keys.head?
        = some (k.cut.key q.space) := by rw [hkeys]; rfl
    refine ⟨hhead, fun hwhole => ?_, fun hbody => ?_⟩
    · rw [hwhole] at hhead
      exact KeyParts.key_cut_eq_iff.1 (Option.some.inj hhead).symm
    · rw [hkeys, hrest hbody, scan, KeyParts.key_cut_eq_iff.2 hbody]
      rfl

/-- The payload `it's` between double quotes is found as `it`. -/
theorem quotation_exact_apostrophe :
    let q : QuotedKeys := ⟨("dfa" : String), [("|http" : String), ("|not-set" : String)]⟩
    let source : Text := ("\"dfa.a|it's\"" : String)
    (q.extract source).keys.head? = some (("dfa.a|it" : String) : Text)
      ∧ (q.extract source).keys ≠ [(("dfa.a|it's" : String) : Text)] := by
  intro q source
  let k : KeyParts :=
    ⟨("a" : String), 'i', ("t's" : String), by decide, by decide, by decide, by decide⟩
  have hexact := (quotation_exact q (by decide)).2 '"' rfl k (by decide) (by decide)
  exact ⟨hexact.1, fun h => absurd (hexact.2.1 h) (by decide)⟩

end QuotedKeys

end KeyHarvest
