/-
Rules that take nothing back reach all the way down. A directory is asked
for with a slash behind its path, and a rule that covers it then covers
every path that goes on behind that slash (`coversNames_below`). Without a
rule that begins with `!` one that covers is enough, so exclusion has the
same property (`excludes_below`).

The slash is an empty name at the end of the path. A part of a rule that
covers an empty name is made of asterisks and covers any other, or it is
empty itself; an empty part is never the last one of a rule
(`partsOf?_complete`), and behind it nothing would be left to cover.
-/
import KeyHarvest.Files.Ignore

namespace KeyHarvest

-- ============================================================== names

namespace Text

theorem splitOn_ne_nil (sep : CodePoint) (t : Text) : splitOn sep t ≠ [] := by
  cases t with
  | nil => simp [splitOn]
  | cons c cs =>
      rw [splitOn]
      split
      · simp
      · split <;> simp

/-- A text is cut at each of its separators by itself. -/
theorem splitOn_append (sep : CodePoint) (t u : Text) :
    splitOn sep (t ++ sep :: u) = splitOn sep t ++ splitOn sep u := by
  induction t with
  | nil =>
      obtain ⟨piece, pieces, hu⟩ := List.exists_cons_of_ne_nil (splitOn_ne_nil sep u)
      simp [splitOn, hu]
  | cons c cs ih =>
      obtain ⟨piece, pieces, hcs⟩ := List.exists_cons_of_ne_nil (splitOn_ne_nil sep cs)
      rw [List.cons_append, splitOn, ih, splitOn, hcs]
      simp only [List.cons_append]
      split <;> simp

/-- Names on both sides of a separator are joined by themselves. -/
theorem join_append {sep : Text} {ts us : List Text} (ht : ts ≠ []) (hu : us ≠ []) :
    join sep (ts ++ us) = join sep ts ++ sep ++ join sep us := by
  unfold join
  induction ts with
  | nil => exact absurd rfl ht
  | cons t ts ih =>
      cases ts with
      | nil =>
          obtain ⟨u, us, rfl⟩ := List.exists_cons_of_ne_nil hu
          rw [List.singleton_append, List.intercalate_cons_cons, List.intercalate_singleton]
      | cons t' ts =>
          have hrest := ih (by simp)
          rw [List.cons_append] at hrest ⊢
          rw [List.cons_append, List.intercalate_cons_cons, hrest, List.intercalate_cons_cons]
          simp only [List.append_assoc]

end Text

namespace Ignore

-- ============================================================== paths

theorem relative_slash (t : Text) : relative (CodePoint.ofChar '/' :: t) = t := rfl

theorem relative_dot_slash (t : Text) :
    relative (CodePoint.ofChar '.' :: CodePoint.ofChar '/' :: t) = t := rfl

/-- A path that begins neither way is relative already. -/
theorem relative_of_ne {path : Text} (h : ∀ t, path ≠ CodePoint.ofChar '/' :: t)
    (h' : ∀ t, path ≠ CodePoint.ofChar '.' :: CodePoint.ofChar '/' :: t) : relative path = path := by
  have hslash : Text.after? "/" path = none :=
    Option.eq_none_iff_forall_ne_some.2 fun t ht => h t (Text.after?_eq_some.1 ht)
  have hdot : Text.after? "./" path = none :=
    Option.eq_none_iff_forall_ne_some.2 fun t ht => h' t (Text.after?_eq_some.1 ht)
  rw [relative, hslash, hdot]

/-- A path that goes on behind a slash has the names in front of it and
those behind it. -/
theorem exists_names (t : Text) :
    ∃ names, ∀ u, Text.splitOn '/' (relative (t ++ CodePoint.ofChar '/' :: u))
      = names ++ Text.splitOn '/' u := by
  match t with
  | [] => exact ⟨[], fun u => rfl⟩
  | c :: cs =>
      by_cases hslash : c = '/'
      · subst hslash
        refine ⟨Text.splitOn '/' cs, fun u => ?_⟩
        rw [List.cons_append, relative_slash, Text.splitOn_append]
      by_cases hdot : c = '.'
      · subst hdot
        match cs with
        | [] => exact ⟨[], fun u => rfl⟩
        | d :: ds =>
            by_cases hslash' : d = '/'
            · subst hslash'
              refine ⟨Text.splitOn '/' ds, fun u => ?_⟩
              rw [List.cons_append, List.cons_append, relative_dot_slash, Text.splitOn_append]
            · refine ⟨Text.splitOn '/' (CodePoint.ofChar '.' :: d :: ds), fun u => ?_⟩
              rw [relative_of_ne (by simp [hslash]) (by simp [hslash']), Text.splitOn_append]
      · refine ⟨Text.splitOn '/' (c :: cs), fun u => ?_⟩
        rw [relative_of_ne (by simp [hslash]) (by simp [hdot]), Text.splitOn_append]

-- =========================================================== patterns

/-- A pattern that covers the empty name is made of asterisks, and covers
every name if there is one. -/
theorem covers_of_covers_nil {items : List Glob.Item} (h : Glob.covers items [] = true)
    (hne : items ≠ []) (name : Text) : Glob.covers items name = true := by
  match items with
  | [] => exact absurd rfl hne
  | .literal _ :: _ => cases h
  | .any :: _ => cases h
  | .oneOf _ _ :: _ => cases h
  | .run :: items =>
      have hrest : Glob.covers items [] = true := by simpa [Glob.covers] using h
      rw [Glob.covers, List.any_eq_true]
      exact ⟨name.length, by simp, by rw [List.drop_length]; exact hrest⟩

/-- Where no names are left, only no parts cover them. -/
theorem coversNames_nil {parts : List Part} (h : coversNames parts [] = true) : parts = [] := by
  induction parts with
  | nil => rfl
  | cons part parts ih =>
      cases part with
      | name pattern => cases h
      | tree =>
          cases parts with
          | nil => cases h
          | cons next parts =>
              have hrest : coversNames (next :: parts) [] = true := by
                simpa [coversNames] using h
              cases ih hrest

/-- Parts whose last is not a name that has to be empty. -/
def Complete (parts : List Part) : Prop := parts.getLast? ≠ some (.name [])

/-- Parts that cover a directory cover all that is below it. -/
theorem coversNames_below {parts : List Part} (hparts : Complete parts) {names rest : List Text}
    (hrest : rest ≠ []) (h : coversNames parts (names ++ [[]]) = true) :
    coversNames parts (names ++ rest) = true := by
  induction parts generalizing names with
  | nil => rfl
  -- on the parts, as only a tree can pass more than one name
  | cons part parts ih =>
      have htail : parts ≠ [] → Complete parts := by
        intro hne
        obtain ⟨next, others, rfl⟩ := List.exists_cons_of_ne_nil hne
        rw [Complete, List.getLast?_cons_cons] at hparts
        exact hparts
      cases part with
      -- a tree passes as many names as before
      | tree =>
          cases parts with
          | nil => simp [coversNames, hrest]
          | cons next parts =>
              rw [coversNames, List.any_eq_true] at h ⊢
              obtain ⟨n, hn, hcovers⟩ := h
              simp only [List.mem_range, List.length_append, List.length_singleton] at hn ⊢
              by_cases hle : n ≤ names.length
              · rw [List.drop_append_of_le_length hle] at hcovers
                refine ⟨n, by omega, ?_⟩
                rw [List.drop_append_of_le_length hle]
                exact ih (htail (by simp)) hcovers
              · rw [List.drop_eq_nil_of_le (by simp; omega)] at hcovers
                cases coversNames_nil hcovers
      | name pattern =>
          cases names with
          -- the name was the empty one behind the slash, so the pattern is made of asterisks
          | nil =>
              obtain ⟨name, rest, rfl⟩ := List.exists_cons_of_ne_nil hrest
              rw [List.nil_append, coversNames, Bool.and_eq_true] at h
              obtain rfl := coversNames_nil h.2
              have hpattern : pattern ≠ [] := by
                rintro rfl
                exact hparts rfl
              rw [List.nil_append, coversNames, covers_of_covers_nil h.1 hpattern]
              rfl
          | cons name names =>
              rw [List.cons_append, coversNames, Bool.and_eq_true] at h ⊢
              refine ⟨h.1, ?_⟩
              by_cases hne : parts = []
              · subst hne
                rfl
              · exact ih (htail hne) h.2

-- ============================================================== rules

/-- A text that is not empty spells a pattern that is not empty. -/
theorem ne_nil_of_ofText? {t : Text} {items : List Glob.Item} (h : Glob.ofText? t = some items)
    (ht : t ≠ []) : items ≠ [] := by
  rintro rfl
  cases t with
  | nil => exact ht rfl
  | cons c cs =>
      rw [Glob.ofText?.eq_def] at h
      dsimp only at h
      split at h
      · split at h
        · cases h
        · simp at h
      · split at h
        · simp at h
        · split at h
          · simp at h
          · split at h
            · split at h <;> simp at h
            · simp at h

/-- The part of a text that is not empty is not the empty name. -/
theorem ne_name_nil_of_ofText? {t : Text} {part : Part} (h : Part.ofText? t = some part)
    (ht : t ≠ []) : part ≠ .name [] := by
  rintro rfl
  unfold Part.ofText? at h
  split at h
  · cases h
  · split at h
    · cases h
    · obtain ⟨items, hitems, heq⟩ := Option.map_eq_some_iff.1 h
      cases heq
      exact ne_nil_of_ofText? hitems ht rfl

theorem twoStars_ne_nil : twoStars ≠ [] := nofun

theorem closed_cons_cons (part next : Text) (rest : List Text) :
    closed (part :: next :: rest) = part :: closed (next :: rest) := by
  cases part <;> rfl

/-- A slash at the end of a line leaves no empty part there. -/
theorem getLast?_closed (l : List Text) : (closed l).getLast? ≠ some [] := by
  match l with
  | [] => nofun
  | [[]] => exact fun h => twoStars_ne_nil (Option.some_inj.1 h)
  | [c :: cs] => nofun
  | part :: next :: rest =>
      have hrest := getLast?_closed (next :: rest)
      rw [closed_cons_cons]
      cases hclosed : closed (next :: rest) with
      | nil =>
          cases rest with
          | nil => cases next <;> cases hclosed
          | cons last rest =>
              rw [closed_cons_cons] at hclosed
              cases hclosed
      | cons a l =>
          rw [hclosed] at hrest
          rw [List.getLast?_cons_cons]
          exact hrest

/-- Making one tree of several leaves the last part. -/
theorem getLast?_merged (l : List Text) : (merged l).getLast? = l.getLast? := by
  induction l with
  | nil => rfl
  | cons part parts ih =>
      rw [merged]
      cases hmerged : merged parts with
      | nil =>
          rw [hmerged] at ih
          rw [List.getLast?_eq_none_iff.1 ih.symm]
      | cons next rest =>
          rw [hmerged] at ih
          have hparts : parts ≠ [] := by
            rintro rfl
            cases hmerged
          obtain ⟨a, others, rfl⟩ := List.exists_cons_of_ne_nil hparts
          dsimp only
          rw [List.getLast?_cons_cons, ← ih]
          split
          · rfl
          · exact List.getLast?_cons_cons

/-- The last of what is spelled comes from the last text. -/
theorem exists_getLast?_of_mapM {l : List Text} {parts : List Part}
    (h : l.mapM Part.ofText? = some parts) {part : Part} (hlast : parts.getLast? = some part) :
    ∃ t, l.getLast? = some t ∧ Part.ofText? t = some part := by
  induction l generalizing parts with
  | nil =>
      cases h
      cases hlast
  | cons t l ih =>
      rw [List.mapM_cons] at h
      obtain ⟨first, hfirst, h⟩ := Option.bind_eq_some_iff.1 h
      obtain ⟨rest, hrest, h⟩ := Option.bind_eq_some_iff.1 h
      cases h
      cases l with
      | nil =>
          cases hrest
          exact ⟨t, rfl, hfirst.trans hlast⟩
      | cons u l =>
          have hne : rest ≠ [] := by
            rintro rfl
            rw [List.mapM_cons] at hrest
            obtain ⟨_, -, hrest⟩ := Option.bind_eq_some_iff.1 hrest
            obtain ⟨_, -, hrest⟩ := Option.bind_eq_some_iff.1 hrest
            cases hrest
          obtain ⟨second, others, rfl⟩ := List.exists_cons_of_ne_nil hne
          rw [List.getLast?_cons_cons] at hlast ⊢
          exact ih hrest hlast

/-- A rule does not end with a name that has to be empty. -/
theorem partsOf?_complete {body : Text} {parts : List Part} (h : partsOf? body = some parts) :
    Complete parts := by
  intro hlast
  -- the last text is not empty, so it spells a pattern that is not
  have hspelled : ∀ t, (merged (closed (anchored (Text.splitOn '/' body)))).getLast? = some t →
      Part.ofText? t ≠ some (.name []) := by
    intro t ht hpart
    have hne : t ≠ [] := by
      rintro rfl
      rw [getLast?_merged] at ht
      exact getLast?_closed _ ht
    exact ne_name_nil_of_ofText? hpart hne rfl
  unfold partsOf? at h
  split at h
  · cases h
  · next part hmerged =>
      split at h
      · cases h
        cases hlast
      · obtain ⟨only, honly, rfl⟩ := Option.map_eq_some_iff.1 h
        cases Option.some_inj.1 hlast
        exact hspelled part (by rw [hmerged]; rfl) honly
  · obtain ⟨t, ht, hpart⟩ := exists_getLast?_of_mapM h hlast
    exact hspelled t ht hpart

/-- The rule of a line takes nothing back unless the line begins with `!`,
and does not end with a name that has to be empty. -/
theorem of_ofLine? {line : Text} {r : Rule} (h : Rule.ofLine? line = some r) :
    r.negated = Text.starts '!' line ∧ Complete r.parts := by
  unfold Rule.ofLine? at h
  split at h
  · cases h
  · split at h
    · next hsign =>
        obtain ⟨parts, hparts, rfl⟩ := Option.map_eq_some_iff.1 h
        exact ⟨hsign.symm, partsOf?_complete hparts⟩
    · next hsign =>
        obtain ⟨parts, hparts, rfl⟩ := Option.map_eq_some_iff.1 h
        exact ⟨(Bool.eq_false_iff.2 hsign).symm, partsOf?_complete hparts⟩

/-- When no line takes paths back, one rule that covers a path is
enough. -/
theorem excludes_iff {ls : List Text} (h : ∀ line ∈ ls, Text.starts '!' line = false)
    (path : Text) :
    excludes ls path = true ↔ ∃ r ∈ ls.filterMap Rule.ofLine?, r.covers path = true := by
  unfold excludes
  constructor
  · intro hexcluded
    cases hlast : ((ls.filterMap Rule.ofLine?).filter fun r => r.covers path).getLast? with
    | none =>
        rw [hlast] at hexcluded
        cases hexcluded
    | some r =>
        obtain ⟨hr, hcovers⟩ := List.mem_filter.1 (List.mem_of_getLast? hlast)
        exact ⟨r, hr, hcovers⟩
  · rintro ⟨r, hr, hcovers⟩
    cases hlast : ((ls.filterMap Rule.ofLine?).filter fun r => r.covers path).getLast? with
    | none =>
        have hmem : r ∈ (ls.filterMap Rule.ofLine?).filter fun r => r.covers path :=
          List.mem_filter.2 ⟨hr, hcovers⟩
        rw [List.getLast?_eq_none_iff.1 hlast] at hmem
        cases hmem
    | some last =>
        obtain ⟨hmem, -⟩ := List.mem_filter.1 (List.mem_of_getLast? hlast)
        obtain ⟨line, hline, hrule⟩ := List.mem_filterMap.1 hmem
        have hnegated := (of_ofLine? hrule).1
        rw [h line hline] at hnegated
        simp [hnegated]

/-- When no line takes paths back, what excludes a directory excludes all
that is below it. -/
theorem excludes_below {ls : List Text} (h : ∀ line ∈ ls, Text.starts '!' line = false)
    {part rest : List Text} (hpart : part ≠ []) (hrest : rest ≠ [])
    (hexcluded : excludes ls (Text.join "/" part ++ "/") = true) :
    excludes ls (Text.join "/" (part ++ rest)) = true := by
  rw [excludes_iff h] at hexcluded ⊢
  obtain ⟨r, hr, hcovers⟩ := hexcluded
  obtain ⟨line, -, hrule⟩ := List.mem_filterMap.1 hr
  refine ⟨r, hr, ?_⟩
  obtain ⟨names, hnames⟩ := exists_names (Text.join "/" part)
  have hjoin : Text.join "/" (part ++ rest)
      = Text.join "/" part ++ CodePoint.ofChar '/' :: Text.join "/" rest := by
    rw [Text.join_append hpart hrest, List.append_assoc]
    rfl
  rw [Rule.covers, hjoin, hnames]
  refine coversNames_below (of_ofLine? hrule).2 (Text.splitOn_ne_nil '/' (Text.join "/" rest)) ?_
  exact (congrArg (coversNames r.parts) (hnames [])).symm.trans hcovers

end Ignore

end KeyHarvest
