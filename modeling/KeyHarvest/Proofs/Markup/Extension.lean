/-
A text with another one behind it. A reader that comes to a good end
inside a text does so whatever follows, with two exceptions: a run that
reaches the end of the text may go on, and a comment that does not end in
the text may end behind it. A text is sealed (`Sealed`) when both are
excluded: it ends with an angle bracket, which ends every run, and no
comment of it ends further on.

The pieces of a sealed text, if they are flawless, are the first pieces of
every text that continues it (`pieces_append`).
-/
import KeyHarvest.Proofs.Markup.Tree

namespace KeyHarvest.Markup

/-- A text that ends with an angle bracket, in which no comment begins
that ends in the text behind it. -/
structure Sealed (rest t : Text) : Prop where
  ends : Bracketed t
  comments : ∀ u, u <:+ t → commentLength? (u ++ rest) = commentLength? u

/-- Behind comments that are all there is, nothing is left. -/
theorem drop_beforeToken_of_full {t : Text} (h : ¬ commentsLength t < t.length) :
    t.drop (beforeToken t) = [] := by
  rw [List.drop_eq_nil_iff]
  unfold beforeToken
  omega

/-- Where comments make up the whole text, nothing is left for a name. -/
theorem drop_beforeName_of_full {t : Text} (h : ¬ commentsLength t < t.length) :
    t.drop (beforeName t) = [] := by
  rw [List.drop_eq_nil_iff]
  unfold beforeName
  omega

-- ============================================================ sealing

namespace Sealed

variable {rest t cs : Text} {c : CodePoint} {n : Nat}

/-- What is left of a sealed text is sealed. -/
theorem drop (h : Sealed rest t) (hn : n < t.length) : Sealed rest (t.drop n) where
  ends := h.ends.drop hn
  comments := fun u hu => h.comments u (hu.trans (List.drop_suffix n t))

/-- A first code point that is no bracket leaves a sealed text. -/
theorem tail (h : Sealed rest (c :: cs)) (hc : c ≠ '>') : Sealed rest cs :=
  h.drop (Nat.succ_lt_succ (h.ends.tail hc).pos)

-- ============================================================= blanks

/-- A gap ends before the end of a sealed text. -/
theorem gap_lt (h : Sealed rest t) : gapLength t < t.length := h.ends.run_lt (by decide)

/-- A gap does not go on into what follows. -/
theorem gap_append (h : Sealed rest t) : gapLength (t ++ rest) = gapLength t := by
  unfold gapLength
  rw [h.ends.run_append (by decide)]

/-- White space ends before the end of a sealed text. -/
theorem space_lt (h : Sealed rest t) : spaceLength t < t.length := h.ends.run_lt (by decide)

/-- White space does not go on into what follows. -/
theorem space_append (h : Sealed rest t) : spaceLength (t ++ rest) = spaceLength t := by
  unfold spaceLength
  rw [h.ends.run_append (by decide)]

/-- The comment in front of a sealed text does not depend on what follows.
-/
theorem lead_append (h : Sealed rest t) : leadingComment? (t ++ rest) = leadingComment? t := by
  unfold leadingComment?
  rw [h.gap_append, List.drop_append_of_le_length (Nat.le_of_lt h.gap_lt),
    h.comments _ (List.drop_suffix _ t)]

/-- Comments in front are the same, unless they are all there is. -/
theorem comments_append (h : Sealed rest t) (hlt : commentsLength t < t.length) :
    commentsLength (t ++ rest) = commentsLength t := by
  induction t using commentsLength.induct with
  | case1 => cases h.ends
  | case2 c cs gap n hlead ih =>
      have hlead' := h.lead_append
      rw [hlead, List.cons_append] at hlead'
      have hpos := (commentLength?_le (leadingComment?_eq_some.1 hlead).2).1
      rw [commentsLength, hlead] at hlt ⊢
      rw [List.cons_append, commentsLength, hlead']
      dsimp only at hlt ⊢
      rw [List.length_cons] at hlt
      have hdrop : cs.drop (gap + n - 1) = (c :: cs).drop (gap + n) := by
        rw [show gap + n = gap + n - 1 + 1 by omega, List.drop_succ_cons]
        rfl
      have hsealed : Sealed rest (cs.drop (gap + n - 1)) := by
        rw [hdrop]
        exact h.drop (by rw [List.length_cons]; omega)
      rw [List.drop_append_of_le_length (by omega), ih hsealed ?_]
      rw [List.length_drop]
      omega
  | case3 c cs hlead =>
      have hlead' := h.lead_append
      rw [hlead, List.cons_append] at hlead'
      rw [List.cons_append, commentsLength, commentsLength, hlead, hlead']

/-- Where a name begins does not depend on what follows. -/
theorem beforeName_append (h : Sealed rest t) (hlt : commentsLength t < t.length) :
    beforeName (t ++ rest) = beforeName t ∧ beforeName t < t.length := by
  have hdrop := h.drop hlt
  have hgap := hdrop.gap_lt
  unfold beforeName
  rw [h.comments_append hlt, List.drop_append_of_le_length (Nat.le_of_lt hlt), hdrop.gap_append]
  rw [List.length_drop] at hgap
  exact ⟨rfl, by omega⟩

/-- Where a token begins does not depend on what follows. -/
theorem beforeToken_append (h : Sealed rest t) (hlt : commentsLength t < t.length) :
    beforeToken (t ++ rest) = beforeToken t ∧ beforeToken t < t.length := by
  have hdrop := h.drop hlt
  have hgap := hdrop.space_lt
  unfold beforeToken
  rw [h.comments_append hlt, List.drop_append_of_le_length (Nat.le_of_lt hlt), hdrop.space_append]
  rw [List.length_drop] at hgap
  exact ⟨rfl, by omega⟩

-- ========================================================= attributes

/-- A value that is read is read whatever follows. -/
theorem value?_append (h : Sealed rest t) {offset : Nat} {r : Node × Nat}
    (hvalue : value? offset t = some r) : value? offset (t ++ rest) = some r := by
  cases t with
  | nil => cases hvalue
  | cons q cs =>
      rw [List.cons_append]
      unfold value? at hvalue ⊢
      dsimp only at hvalue ⊢
      split
      · rename_i hquote
        rw [if_pos hquote] at hvalue
        have hcs : Sealed rest cs := by
          apply h.tail
          rcases hquote with rfl | rfl <;> decide
        split at hvalue
        · rename_i hclose
          have hpos := starts_pos hclose
          rw [List.length_drop] at hpos
          have hrun : ((cs ++ rest).drop (commentsLength cs)).takeWhile
                (fun c => c ≠ q && c.val ≠ 0)
              = (cs.drop (commentsLength cs)).takeWhile (fun c => c ≠ q && c.val ≠ 0) := by
            rw [List.drop_append_of_le_length (by omega), List.takeWhile_append,
              if_neg (by rw [List.length_drop]; omega)]
          rw [hcs.comments_append (by omega), hrun, List.drop_append_of_le_length (by omega),
            (hcs.drop (by omega)).ends.starts_append, if_pos hclose]
          exact hvalue
        · cases hvalue
      · rename_i hquote
        rw [if_neg hquote, ← List.cons_append, h.ends.run_append (by decide)] at *
        exact hvalue

/-- A code point that is not the last one has more behind it. -/
theorem succ_lt_of_starts (h : Sealed rest t) (hn : n < t.length)
    (hstarts : Text.starts c (t.drop n) = true) (hc : c ≠ '>') : n + 1 < t.length := by
  have hdrop := h.drop hn
  cases hcons : t.drop n with
  | nil =>
      rw [hcons] at hstarts
      cases hstarts
  | cons d ds =>
      rw [hcons] at hstarts hdrop
      obtain rfl : d = c := by simpa [Text.starts] using hstarts
      have hpos := (hdrop.tail hc).ends.pos
      have hlength := congrArg List.length hcons
      rw [List.length_drop, List.length_cons] at hlength
      omega

/-- An attribute that more than comments follow. -/
theorem readAttribute_append (h : Sealed rest t) {offset : Nat} {node : Node}
    (hread : readAttribute offset t = .ok (node, n))
    (hmore : commentsLength (t.drop n) < (t.drop n).length) :
    readAttribute offset (t ++ rest) = .ok (node, n) := by
  unfold readAttribute at hread ⊢
  dsimp only at hread ⊢
  rw [h.ends.run_append (by decide)]
  have hname := h.ends.run_lt (p := isAttributeChar) (by decide)
  generalize (t.takeWhile isAttributeChar).length = name at hname hread ⊢
  have hdrop := h.drop hname
  rw [List.drop_append_of_le_length (Nat.le_of_lt hname)]
  by_cases hcomments : commentsLength (t.drop name) < (t.drop name).length
  · obtain ⟨hgap, hgapLt⟩ := hdrop.beforeToken_append hcomments
    rw [List.length_drop] at hgapLt
    rw [hgap]
    generalize beforeToken (t.drop name) = gap at hgapLt hread ⊢
    rw [List.drop_append_of_le_length (by omega), (h.drop (by omega)).ends.starts_append]
    split
    · rename_i hequals
      rw [if_pos hequals] at hread
      have hlt := h.succ_lt_of_starts (by omega) hequals (by decide)
      have hvalue := h.drop hlt
      rw [List.drop_append_of_le_length (Nat.le_of_lt hlt)]
      by_cases hfull : commentsLength (t.drop (name + gap + 1)) < (t.drop (name + gap + 1)).length
      · obtain ⟨hstart, hstartLt⟩ := hvalue.beforeToken_append hfull
        rw [List.length_drop] at hstartLt
        rw [hstart]
        generalize beforeToken (t.drop (name + gap + 1)) = start at hstartLt hread ⊢
        rw [List.drop_append_of_le_length (by omega)]
        cases hvalue? : value? (offset + (name + gap + 1 + start))
            (t.drop (name + gap + 1 + start)) with
        | none =>
            rw [hvalue?] at hread
            cases hread
        | some r =>
            rw [hvalue?] at hread
            rw [(h.drop (by omega)).value?_append hvalue?]
            exact hread
      · -- a value is missing
        have hend := drop_beforeToken_of_full hfull
        rw [List.drop_drop] at hend
        rw [hend] at hread
        cases hread
    · rename_i hequals
      rw [if_neg hequals] at hread
      exact hread
  · -- nothing but comments follows, so the attribute ends with its name
    exfalso
    have hend := drop_beforeToken_of_full hcomments
    rw [List.drop_drop] at hend
    rw [hend] at hread
    cases hread
    exact hcomments hmore

end Sealed

/-- A tag that has only comments before the end of the text is cut off. -/
theorem ending_of_full {t : Text} (last offset : Nat) (h : ¬ commentsLength t < t.length) :
    ∃ place, (tagBody last offset t).ending = .cut place := by
  cases t with
  | nil =>
      rw [tagBody]
      exact ⟨last, rfl⟩
  | cons c cs =>
      have hle := commentsLength_le (c :: cs)
      have hskip : commentsLength (c :: cs) = cs.length + 1 := by
        rw [List.length_cons] at h hle
        omega
      rw [tagBody, if_pos (by omega), hskip, Nat.add_sub_cancel, List.drop_length, tagBody]
      exact ⟨_, rfl⟩

/-- A body that is not cut short has something behind the comments in front.
-/
theorem comments_lt_of_ending {t : Text} {last offset : Nat}
    (h : ∀ place, (tagBody last offset t).ending ≠ .cut place) : commentsLength t < t.length := by
  by_cases hlt : commentsLength t < t.length
  · exact hlt
  · obtain ⟨place, hplace⟩ := ending_of_full last offset hlt
    exact absurd hplace (h place)

/-- A broken body has a malformed place. -/
theorem brokenBody_flawed (offset : Nat) (t : Text) :
    (brokenBody offset t).children.any (·.flawed) = true := by
  unfold brokenBody
  dsimp only
  split <;> rfl

/-- What a body goes on with is without fault when all of it is. -/
theorem TagBody.any_after {nodes : List Node} {n : Nat} {b : TagBody}
    (h : (b.after nodes n).children.any (·.flawed) = false) :
    b.children.any (·.flawed) = false := by
  unfold TagBody.after at h
  rw [List.any_append, Bool.or_eq_false_iff] at h
  exact h.2

/-- An attribute that is read has a length. -/
theorem readAttribute_pos {offset n : Nat} {c : CodePoint} {cs : Text} {node : Node}
    (hc : isAttributeChar c = true) (h : readAttribute offset (c :: cs) = .ok (node, n)) :
    0 < n := by
  have hname : 0 < ((c :: cs).takeWhile isAttributeChar).length := by
    rw [List.takeWhile_cons_of_pos hc]
    exact Nat.succ_pos _
  unfold readAttribute at h
  dsimp only at h
  split at h
  · split at h
    · cases h
      omega
    · cases h
  · cases h
    exact hname

namespace Sealed

variable {rest t cs : Text} {c : CodePoint} {n : Nat}

/-- Whether a tag closes itself does not depend on what follows. -/
theorem after?_append (h : Sealed rest t) :
    (Text.after? ['/', '>'] (t ++ rest)).isSome = (Text.after? ['/', '>'] t).isSome := by
  have hsome : ∀ u : Text, (Text.after? ['/', '>'] u).isSome
      = List.isPrefixOf [CodePoint.ofChar '/', CodePoint.ofChar '>'] u := by
    intro u
    unfold Text.after?
    split <;> simp [*]
  rw [hsome, hsome]
  cases t with
  | nil => exact absurd h.ends nofun
  | cons d ds =>
      by_cases hd : d = '/'
      · subst hd
        cases ds with
        | nil => exact absurd (Option.some.inj h.ends) (by decide)
        | cons e es => rfl
      · have hne : (CodePoint.ofChar '/' == d) = false := beq_false_of_ne (Ne.symm hd)
        rw [List.cons_append, List.isPrefixOf, List.isPrefixOf, hne, Bool.false_and,
          Bool.false_and]

/-- What stands behind a part of a sealed text is sealed. -/
theorem behind (h : Sealed rest (c :: cs)) (hpos : 0 < n) (hn : n < (c :: cs).length) :
    Sealed rest (cs.drop (n - 1)) ∧ (cs ++ rest).drop (n - 1) = cs.drop (n - 1) ++ rest := by
  have hdrop := h.drop hn
  rw [show n = n - 1 + 1 by omega, List.drop_succ_cons] at hdrop
  refine ⟨hdrop, List.drop_append_of_le_length ?_⟩
  rw [List.length_cons] at hn
  omega

/-- What decides how the body of a tag goes on is the same. -/
theorem tag_head (h : Sealed rest (c :: cs)) (hlt : commentsLength (c :: cs) < (c :: cs).length) :
    commentsLength (c :: (cs ++ rest)) = commentsLength (c :: cs)
      ∧ gapLength (c :: (cs ++ rest)) = gapLength (c :: cs)
      ∧ (Text.after? ['/', '>'] ((c :: (cs ++ rest)).drop (gapLength (c :: cs)))).isSome
        = (Text.after? ['/', '>'] ((c :: cs).drop (gapLength (c :: cs)))).isSome := by
  refine ⟨h.comments_append hlt, h.gap_append, ?_⟩
  rw [← (h.drop h.gap_lt).after?_append,
    ← List.drop_append_of_le_length (Nat.le_of_lt h.gap_lt)]
  rfl

/-- The body of a tag that ends well ends so whatever follows. -/
theorem tagBody_append {last offset : Nat} (h : Sealed rest t)
    (hending : ∀ place, (tagBody last offset t).ending ≠ .cut place)
    (hflawless : (tagBody last offset t).children.any (·.flawed) = false) :
    tagBody last offset (t ++ rest) = tagBody last offset t := by
  induction last, offset, t using tagBody.induct with
  | case1 => cases h.ends
  | case2 last offset c cs skip hne ih =>
      -- comments in front: the body goes on behind them
      have hlt := comments_lt_of_ending hending
      obtain ⟨hskips, -, -⟩ := h.tag_head hlt
      obtain ⟨hbehind, hdrop⟩ := h.behind (Nat.pos_of_ne_zero hne) hlt
      rw [tagBody, if_pos hne] at hending hflawless
      rw [List.cons_append, tagBody, tagBody, hskips, if_pos hne, if_pos hne, hdrop,
        ih hbehind hending (TagBody.any_after hflawless)]
  | case3 last offset c cs skip gap hne hself =>
      -- the tag closes itself
      obtain ⟨hskips, hgaps, hselfs⟩ := h.tag_head (comments_lt_of_ending hending)
      rw [List.cons_append, tagBody, tagBody, hskips, hgaps, hselfs, if_neg hne, if_neg hne,
        if_pos hself, if_pos hself]
  | case4 last offset c cs skip gap hne hself hspace n ih =>
      obtain ⟨hskips, hgaps, hselfs⟩ := h.tag_head (comments_lt_of_ending hending)
      have hspaces := h.space_append
      have hpos : 0 < spaceLength (c :: cs) := by
        unfold spaceLength
        -- a blank is passed
        rw [List.takeWhile_cons_of_pos hspace]
        exact Nat.succ_pos _
      obtain ⟨hbehind, hdrop⟩ := h.behind hpos h.space_lt
      rw [tagBody, if_neg hne, if_neg hself, if_pos hspace] at hending hflawless
      rw [List.cons_append] at hspaces ⊢
      rw [tagBody, tagBody, hskips, hgaps, hselfs, if_neg hne, if_neg hne, if_neg hself,
        if_neg hself, if_pos hspace, if_pos hspace, hspaces]
      dsimp only
      rw [hdrop, ih hbehind hending (TagBody.any_after hflawless)]
  | case5 last offset cs skip gap hne hself hspace =>
      obtain ⟨hskips, hgaps, hselfs⟩ := h.tag_head (comments_lt_of_ending hending)
      rw [List.cons_append, tagBody, tagBody, hskips, hgaps, hselfs, if_neg hne, if_neg hne,
        -- the bracket closes the tag
        if_neg hself, if_neg hself, if_neg hspace, if_neg hspace, if_pos rfl, if_pos rfl]
  | case6 last offset c cs skip gap hne hself hspace hclose hattr node n hread ih =>
      obtain ⟨hskips, hgaps, hselfs⟩ := h.tag_head (comments_lt_of_ending hending)
      rw [tagBody, if_neg hne, if_neg hself, if_neg hspace, if_neg hclose, if_pos hattr, hread]
        at hending hflawless
      -- an attribute, with more than comments behind it
      have hmore : commentsLength (cs.drop (n - 1)) < (cs.drop (n - 1)).length :=
        comments_lt_of_ending hending
      have hpos := readAttribute_pos hattr hread
      have hbehind' : (c :: cs).drop n = cs.drop (n - 1) := by
        rw [show n = n - 1 + 1 by omega, List.drop_succ_cons]
        rfl
      have hlt : n < (c :: cs).length := by
        rw [List.length_drop] at hmore
        rw [List.length_cons]
        omega
      obtain ⟨hbehind, hdrop⟩ := h.behind hpos hlt
      have hreads := h.readAttribute_append hread (by rwa [hbehind'])
      rw [List.cons_append] at hreads ⊢
      rw [tagBody, tagBody, hskips, hgaps, hselfs, if_neg hne, if_neg hne, if_neg hself,
        if_neg hself, if_neg hspace, if_neg hspace, if_neg hclose, if_neg hclose, if_pos hattr,
        if_pos hattr, hread, hreads]
      dsimp only
      rw [hdrop, ih hbehind hending (TagBody.any_after hflawless)]
  | case7 last offset c cs skip gap hne hself hspace hclose hattr k hread =>
      rw [tagBody, if_neg hne, if_neg hself, if_neg hspace, if_neg hclose, if_pos hattr, hread]
        at hflawless
      have hflawed := TagBody.any_after hflawless
      -- a malformed place is no part of a body without fault
      rw [brokenBody_flawed] at hflawed
      cases hflawed
  | case8 last offset c cs skip gap hne hself hspace hclose hattr =>
      rw [tagBody, if_neg hne, if_neg hself, if_neg hspace, if_neg hclose, if_neg hattr,
        brokenBody_flawed] at hflawless
      cases hflawless

-- =============================================================== tags

/-- An end tag that is read is read whatever follows. -/
theorem endTag?_append (h : Sealed rest t) {offset : Nat} {r : TagName × Bool × Node × Nat}
    (hend : endTag? offset t = some r) : endTag? offset (t ++ rest) = some r := by
  have hcomments : commentsLength t < t.length := by
    by_cases hlt : commentsLength t < t.length
    · exact hlt
    · unfold endTag? at hend
      dsimp only at hend
      rw [drop_beforeName_of_full hlt] at hend
      cases hend
  obtain ⟨hgap, hgapLt⟩ := h.beforeName_append hcomments
  unfold endTag? at hend ⊢
  dsimp only at hend ⊢
  rw [hgap]
  generalize beforeName t = gap at hgapLt hend ⊢
  have hdrop := h.drop hgapLt
  have hlabel := hdrop.ends.run_lt (p := isTagChar) (by decide)
  rw [List.drop_append_of_le_length (Nat.le_of_lt hgapLt), hdrop.ends.run_append (by decide)]
  rw [List.length_drop] at hlabel
  generalize (t.drop gap).takeWhile isTagChar = label at hlabel hend ⊢
  have hbehind : (t ++ rest).drop (gap + label.length) = t.drop (gap + label.length) ++ rest :=
    List.drop_append_of_le_length (by omega)
  rw [hbehind]
  by_cases hlt : commentsLength (t.drop (gap + label.length)) < (t.drop (gap + label.length)).length
  · obtain ⟨hstop, hstopLt⟩ := (h.drop (by omega)).beforeToken_append hlt
    rw [List.length_drop] at hstopLt
    rw [hstop, List.drop_append_of_le_length (by omega), (h.drop (by omega)).ends.starts_append]
    exact hend
  · have hnil := drop_beforeToken_of_full hlt
    rw [List.drop_drop] at hnil
    rw [hnil, show Text.starts '>' [] = false from rfl, Bool.and_false] at hend
    cases hend

/-- Raw text ends at its first end. -/
theorem rawLength?_append {delimiter left : Text} {length matched : Nat}
    (h : rawLength? delimiter length matched left t = some n) :
    rawLength? delimiter length matched left (t ++ rest) = some n := by
  induction t generalizing length matched left with
  | nil =>
      cases left with
      | nil => rw [← h]; cases rest <;> rfl
      | cons l left => cases h
  | cons c cs ih =>
      cases left with
      | nil => exact h
      | cons l left =>
          rw [rawLength?] at h
          rw [List.cons_append, rawLength?]
          split
          · rename_i hc
            rw [if_pos hc] at h
            exact ih h
          · rename_i hc
            rw [if_neg hc] at h
            exact ih h

/-- The empty text has no end tag. -/
theorem endTag?_nil (offset : Nat) : endTag? offset [] = none := by
  unfold endTag?
  simp

/-- An element of raw text is the same whatever follows. -/
theorem rawElement?_append (h : t = [] ∨ Sealed rest t) {kind : Kind} {name : String} {tag : Node}
    {r : Node × Nat} (hraw : rawElement? kind name tag t = some r) :
    rawElement? kind name tag (t ++ rest) = some r := by
  unfold rawElement? at hraw ⊢
  simp only [Option.bind_eq_bind, Option.bind_eq_some_iff] at hraw ⊢
  obtain ⟨k, hk, close, hclose, hr⟩ := hraw
  refine ⟨k, rawLength?_append hk, close, ?_, hr⟩
  have hlt : k + 2 < t.length := by
    by_cases hlt : k + 2 < t.length
    · exact hlt
    · have hnil : t.drop (k + 2) = [] := List.drop_eq_nil_iff.2 (by omega)
      rw [hnil, endTag?_nil] at hclose
      cases hclose
  rcases h with rfl | h
  · cases hlt
  · rw [List.drop_append_of_le_length (Nat.le_of_lt hlt)]
    exact (h.drop hlt).endTag?_append hclose

end Sealed

/-- A start tag has a malformed place when its body has one. -/
theorem tagNode_flawed (offset : Nat) (t : Text) (kind : Kind) :
    (tagNode offset t kind).flawed = (bodyOf offset t).children.any (·.flawed) := by
  unfold tagNode Node.branch
  rfl

/-- The start tag of an element without fault is without fault. -/
theorem flawless_of_rawElement? {kind : Kind} {name : String} {tag element : Node} {t : Text}
    {n : Nat} (hraw : rawElement? kind name tag t = some (element, n))
    (h : element.flawed = false) : tag.flawed = false := by
  unfold rawElement? at hraw
  simp only [Option.bind_eq_bind, Option.bind_eq_some_iff] at hraw
  obtain ⟨k, -, close, -, hr⟩ := hraw
  split at hr
  · cases hr
    simp only [Node.branch, List.any_cons, Bool.or_eq_false_iff] at h
    exact h.1
  · cases hr

/-- How the tag of a flawless piece ends: closed by itself, open, or open
with raw text behind it that has an end. -/
theorem ending_of_flawless {offset : Nat} {t : Text} (h : (startTag offset t).1.Flawless) :
    tagLabel t ≠ [] ∧ (bodyOf offset t).children.any (·.flawed) = false
      ∧ ((bodyOf offset t).ending = .selfClosed ∧ rawKind? (TagName.ofText (tagLabel t)) = none
        ∨ (bodyOf offset t).ending = .opened ∧ (rawKind? (TagName.ofText (tagLabel t)) = none
          ∨ ∃ word kind r, rawKind? (TagName.ofText (tagLabel t)) = some (word, kind)
            ∧ rawElement? kind word (tagNode offset t .startTag)
              (t.drop (tagLength offset t - 1)) = some r)) := by
  rw [startTag_eq] at h
  split at h
  · cases h
  rename_i hlabel
  refine ⟨by simpa using hlabel, ?_⟩
  rw [← tagNode_flawed offset t .startTag]
  cases hending : (bodyOf offset t).ending with
  -- a tag that is cut or broken has a fault, so the two forms of an end are left
  | broken =>
      rw [hending] at h
      cases h
  | cut place =>
      rw [hending] at h
      cases hraw : rawKind? (TagName.ofText (tagLabel t)) with
      | none =>
          rw [hraw] at h
          cases h
      | some r =>
          rw [hraw] at h
          cases h
  | selfClosed =>
      rw [hending] at h
      cases hraw : rawKind? (TagName.ofText (tagLabel t)) with
      | none =>
          rw [hraw] at h
          have htag : (tagNode offset t .selfClosingTag).flawed = false := by
            simpa [Piece.Flawless, Node.branch] using h
          exact ⟨by rwa [tagNode_flawed] at htag ⊢, .inl ⟨rfl, rfl⟩⟩
      | some r =>
          rw [hraw] at h
          cases h
  | opened =>
      rw [hending] at h
      cases hraw : rawKind? (TagName.ofText (tagLabel t)) with
      | none =>
          rw [hraw] at h
          exact ⟨h, .inr ⟨rfl, .inl rfl⟩⟩
      | some r =>
          rw [hraw] at h
          dsimp only at h
          split at h
          · rename_i element n helement
            exact ⟨flawless_of_rawElement? helement h, .inr ⟨rfl, .inr ⟨_, _, _, rfl, helement⟩⟩⟩
          · cases h

namespace Sealed

variable {rest t cs : Text} {c : CodePoint} {n : Nat}

/-- A start tag without fault is the same whatever follows. -/
theorem startTag_append (h : Sealed rest t) {offset : Nat}
    (hflawless : (startTag offset t).1.Flawless) :
    startTag offset (t ++ rest) = startTag offset t := by
  obtain ⟨hlabel, hchildren, hform⟩ := ending_of_flawless hflawless
  have hending : ∀ place, (bodyOf offset t).ending ≠ .cut place := by
    intro place
    rcases hform with ⟨hform, -⟩ | ⟨hform, -⟩ <;> rw [hform] <;> nofun
  -- a name was read, so more than comments stands in front
  have hcomments : commentsLength t < t.length := by
    by_cases hlt : commentsLength t < t.length
    · exact hlt
    · unfold tagLabel at hlabel
      rw [drop_beforeName_of_full hlt] at hlabel
      exact absurd rfl hlabel
  obtain ⟨hgap, hgapLt⟩ := h.beforeName_append hcomments
  have hdrop := h.drop hgapLt
  have hlabels : tagLabel (t ++ rest) = tagLabel t := by
    unfold tagLabel
    rw [hgap, List.drop_append_of_le_length (Nat.le_of_lt hgapLt), hdrop.ends.run_append (by decide)]
  have hhead : headLength t < t.length := by
    have hlt := hdrop.ends.run_lt (p := isTagChar) (by decide)
    rw [List.length_drop] at hlt
    unfold headLength tagLabel
    omega
  have hheads : headLength (t ++ rest) = headLength t := by
    unfold headLength
    rw [hgap, hlabels]
  have hbody : bodyOf offset (t ++ rest) = bodyOf offset t := by
    unfold bodyOf
    rw [hheads, List.drop_append_of_le_length (Nat.le_of_lt hhead)]
    exact (h.drop hhead).tagBody_append hending hchildren
  have hlength : tagLength offset (t ++ rest) = tagLength offset t := by
    unfold tagLength
    rw [hheads, hbody]
  have htag : ∀ kind, tagNode offset (t ++ rest) kind = tagNode offset t kind := by
    intro kind
    unfold tagNode
    rw [hlength, hgap, hheads, hbody]
  have hempty : ¬ (tagLabel t).isEmpty = true := by simpa using hlabel
  rw [startTag_eq, startTag_eq, hlabels, hgap, hbody, hlength, if_neg hempty, if_neg hempty]
  simp only [htag]
  rcases hform with ⟨hform, hraw⟩ | ⟨hform, hraw | ⟨word, kind, r, hraw, helement⟩⟩
  · rw [hform, hraw]
  · rw [hform, hraw]
  · have hle := tagLength_le offset t
    have hbehind : (t ++ rest).drop (tagLength offset t - 1)
        = t.drop (tagLength offset t - 1) ++ rest := List.drop_append_of_le_length (by omega)
    have hsealed : t.drop (tagLength offset t - 1) = []
        ∨ Sealed rest (t.drop (tagLength offset t - 1)) := by
      by_cases hlt : tagLength offset t - 1 < t.length
      · exact .inr (h.drop hlt)
      · exact .inl (List.drop_eq_nil_iff.2 (by omega))
    rw [hform, hraw]
    dsimp only
    rw [hbehind, rawElement?_append hsealed helement, helement]

-- ======================================================= other pieces

/-- A doctype that ends is as long whatever follows. -/
theorem doctypeLength?_append (h : Sealed rest t) (hdoctype : doctypeLength? t = some n) :
    doctypeLength? (t ++ rest) = some n := by
  unfold doctypeLength? at hdoctype ⊢
  dsimp only at hdoctype ⊢
  split at hdoctype
  case isFalse => cases hdoctype
  rename_i hread
  obtain ⟨hread, hend⟩ := Bool.and_eq_true_iff.1 hread
  have hword := congrArg List.length (of_decide_eq_true (Bool.and_eq_true_iff.1 hread).1)
  rw [List.length_map, List.length_take, List.length_drop,
    show (Text.ofString "DOCTYPE").length = 7 from rfl] at hword
  have hpos := starts_pos hend
  rw [List.length_drop, List.length_drop] at hpos
  have hcomments : commentsLength t < t.length := by
    by_cases hlt : commentsLength t < t.length
    · exact hlt
    · have hnil := congrArg List.length (drop_beforeToken_of_full hlt)
      rw [List.length_drop, List.length_nil] at hnil
      omega
  obtain ⟨hgap, hgapLt⟩ := h.beforeToken_append hcomments
  rw [hgap]
  generalize beforeToken t = gap at *
  have hbehind : (t ++ rest).drop (gap + 7) = t.drop (gap + 7) ++ rest :=
    List.drop_append_of_le_length (by omega)
  have hskip : commentsLength (t.drop (gap + 7) ++ rest) = commentsLength (t.drop (gap + 7)) :=
    (h.drop (by omega)).comments_append (by rw [List.length_drop]; omega)
  rw [hbehind, hskip]
  generalize commentsLength (t.drop (gap + 7)) = skip at *
  have hrest := h.drop (n := gap + 7 + skip) (by omega)
  have htake : ((t ++ rest).drop gap).take 7 = (t.drop gap).take 7 := by
    rw [List.drop_append_of_le_length (by omega), List.take_append_of_le_length]
    rw [List.length_drop]
    omega
  rw [htake, List.drop_append_of_le_length (by omega), hrest.ends.run_append (by decide),
    List.drop_append_of_le_length (by rw [List.length_drop]; omega),
    (hrest.drop (by rw [List.length_drop]; omega)).ends.starts_append, hread, hend]
  exact hdoctype

/-- What begins with a bracket is the same whatever follows, if it is
without fault. -/
theorem bracketPiece_append (h : Sealed rest t) {offset : Nat}
    (hflawless : (bracketPiece offset t).1.Flawless) :
    bracketPiece offset (t ++ rest) = bracketPiece offset t := by
  have hbehind : ∀ c, Text.starts c t = true → c ≠ '>' →
      Sealed rest (t.drop 1) ∧ (t ++ rest).drop 1 = t.drop 1 ++ rest := by
    intro c hstarts hc
    have hlt := h.succ_lt_of_starts h.ends.pos hstarts hc
    exact ⟨h.drop hlt, List.drop_append_of_le_length (Nat.le_of_lt hlt)⟩
  unfold bracketPiece at hflawless ⊢
  rw [h.ends.starts_append, h.ends.starts_append]
  split
  · rename_i hbang
    obtain ⟨hsealed, hdrop⟩ := hbehind _ hbang (by decide)
    rw [if_pos hbang] at hflawless
    rw [hdrop]
    cases hdoctype : doctypeLength? (t.drop 1) with
    | none =>
        rw [hdoctype] at hflawless
        exact absurd hflawless nofun
    | some n => rw [hsealed.doctypeLength?_append hdoctype]
  · rename_i hbang
    rw [if_neg hbang] at hflawless
    split
    · rename_i hslash
      obtain ⟨hsealed, hdrop⟩ := hbehind _ hslash (by decide)
      rw [if_pos hslash] at hflawless
      rw [hdrop]
      cases hend : endTag? (offset + 2) (t.drop 1) with
      | none =>
          rw [hend] at hflawless
          exact absurd hflawless nofun
      | some r => rw [hsealed.endTag?_append hend]
    · rename_i hslash
      rw [if_neg hslash] at hflawless
      exact h.startTag_append hflawless

/-- A run in a window of the text. -/
theorem window_append (h : Sealed rest t) {p : CodePoint → Bool} (hp : p '>' = false)
    (width : Nat) :
    ((t ++ rest).take width).takeWhile p = (t.take width).takeWhile p
      ∧ ((t.take width).takeWhile p).length < t.length := by
  have hcut : ∀ u : Text, (u.take width).takeWhile p = (u.takeWhile p).take width := by
    intro u
    induction u generalizing width with
    | nil => simp
    | cons c cs ih =>
        cases width with
        | zero => simp
        | succ width =>
            by_cases hc : p c = true
            · rw [List.take_succ_cons, List.takeWhile_cons_of_pos hc, ih,
                List.takeWhile_cons_of_pos hc, List.take_succ_cons]
            · rw [List.take_succ_cons, List.takeWhile_cons_of_neg hc,
                List.takeWhile_cons_of_neg hc, List.take_nil]
  have hlt := h.ends.run_lt hp
  rw [hcut, hcut, h.ends.run_append hp, List.length_take]
  exact ⟨rfl, by omega⟩

/-- An entity is as long whatever follows. -/
theorem entityLength?_append (h : Sealed rest t) :
    entityLength? (t ++ rest) = entityLength? t := by
  have hclosed : ∀ k, k < t.length →
      Text.starts ';' ((t ++ rest).drop k) = Text.starts ';' (t.drop k) := by
    intro k hk
    rw [List.drop_append_of_le_length (Nat.le_of_lt hk), (h.drop hk).ends.starts_append]
  unfold entityLength?
  dsimp only
  rw [h.ends.starts_append]
  split
  · rename_i hhash
    have hone := h.succ_lt_of_starts h.ends.pos hhash (by decide)
    have hdigits := (h.drop hone).window_append (p := CodePoint.isAsciiDigit) (by decide) 5
    have hdrop : (t ++ rest).drop 1 = t.drop 1 ++ rest :=
      List.drop_append_of_le_length (Nat.le_of_lt hone)
    rw [hdrop, (h.drop hone).ends.starts_append, (h.drop hone).ends.starts_append]
    split
    · rename_i hx
      have htwo : 2 < t.length := by
        rcases Bool.or_eq_true_iff.1 hx with hx | hx
        · exact h.succ_lt_of_starts hone hx (by decide)
        · exact h.succ_lt_of_starts hone hx (by decide)
      have hhex := (h.drop htwo).window_append (p := CodePoint.isHex) (by decide) 6
      rw [List.length_drop] at hhex
      rw [List.drop_append_of_le_length (Nat.le_of_lt htwo), hhex.1, hclosed _ (by omega)]
    · rw [List.length_drop] at hdigits
      rw [hdigits.1, hclosed _ (by omega)]
  · have hletters := h.window_append (p := CodePoint.isAsciiLetter) (by decide) 30
    rw [hletters.1, hclosed _ hletters.2]

/-- The next piece is the same whatever follows, if it is without fault. -/
theorem nextPiece_append (h : Sealed rest (c :: cs)) {offset : Nat}
    (hflawless : (nextPiece offset c cs).1.Flawless) :
    nextPiece offset c (cs ++ rest) = nextPiece offset c cs := by
  have hlead := h.lead_append
  have hrun : (c :: (cs ++ rest)).takeWhile isTextChar = (c :: cs).takeWhile isTextChar :=
    h.ends.run_append (by decide)
  rw [List.cons_append] at hlead
  unfold nextPiece at hflawless ⊢
  rw [hlead, hrun]
  split
  · rfl
  · rename_i hnone
    rw [hnone] at hflawless
    dsimp only at hflawless
    split
    · rename_i hopen
      rw [if_pos hopen] at hflawless
      exact (h.tail (by rw [hopen]; decide)).bracketPiece_append hflawless
    · rename_i hopen
      rw [if_neg hopen] at hflawless
      split
      · rename_i hamp
        rw [if_pos hamp] at hflawless
        rw [(h.tail (by rw [hamp]; decide)).entityLength?_append]
        cases hentity : entityLength? cs with
        | none =>
            rw [hentity] at hflawless
            cases hflawless
        | some n => rfl
      · rename_i hamp
        rw [if_neg hamp] at hflawless
        split
        · rfl
        · rename_i htext
          rw [if_neg htext] at hflawless
          cases hflawless

end Sealed

/-- The pieces of a sealed text come first, and then those of what stands
behind it. -/
theorem pieces_append {rest t : Text} (offset : Nat) (h : t = [] ∨ Sealed rest t)
    (hflawless : ∀ p ∈ pieces offset t, p.Flawless) :
    pieces offset (t ++ rest) = pieces offset t ++ pieces (offset + t.length) rest := by
  induction offset, t using pieces.induct with
  | case1 offset => rw [pieces]; rfl
  | case2 offset c cs hspace ih =>
      have hsealed : Sealed rest (c :: cs) := h.resolve_left (List.cons_ne_nil c cs)
      have hc : c ≠ '>' := by
        rintro rfl
        revert hspace
        decide
      rw [pieces, if_pos hspace] at hflawless
      rw [List.cons_append, pieces, if_pos hspace, pieces, if_pos hspace,
        ih (.inr (hsealed.tail hc)) hflawless, List.length_cons, Nat.add_assoc, Nat.add_comm 1]
  | case3 offset c cs hspace node n hnext =>
      rw [pieces, if_neg hspace, hnext] at hflawless
      cases hflawless _ (List.mem_singleton.2 rfl)
  | case4 offset c cs hspace piece n hfinal hnext ih =>
      have hsealed : Sealed rest (c :: cs) := h.resolve_left (List.cons_ne_nil c cs)
      rw [pieces_of_nextPiece hspace hnext hfinal] at hflawless
      have hpiece : (nextPiece offset c cs).1.Flawless := by
        rw [hnext]
        exact hflawless piece List.mem_cons_self
      have hnext' := hsealed.nextPiece_append hpiece
      rw [hnext] at hnext'
      have hn := (nextPiece_sound offset c cs).1
      rw [hnext] at hn
      dsimp only at hn
      have hbehind : cs.drop (n - 1) = [] ∨ Sealed rest (cs.drop (n - 1)) := by
        by_cases hlt : n - 1 + 1 < (c :: cs).length
        · exact .inr (hsealed.drop hlt)
        · rw [List.length_cons] at hlt
          exact .inl (List.drop_eq_nil_iff.2 (by omega))
      rw [List.cons_append, pieces_of_nextPiece hspace hnext' hfinal,
        pieces_of_nextPiece hspace hnext hfinal, List.drop_append_of_le_length (by omega),
        ih hbehind fun p hp => hflawless p (List.mem_cons_of_mem _ hp), List.cons_append,
        List.length_drop, List.length_cons]
      congr 3
      omega

end KeyHarvest.Markup
