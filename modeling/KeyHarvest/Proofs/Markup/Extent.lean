/-
How far pieces reach. No reader goes beyond its text, so every node of a
piece lies inside the text, and the flag of a node is raised exactly over
malformed places (`pieces_sound`). A piece after which nothing is read is
always malformed.
-/
import KeyHarvest.Proofs.Markup.Comment
import KeyHarvest.Proofs.Markup.Forest

namespace KeyHarvest.Markup

open Node (AllSound allSound_leaf allSound_branch allSound_broken allSound_append allSound_cons)

-- ============================================================= blanks

theorem leadingComment?_le {t : Text} {gap n : Nat} (h : leadingComment? t = some (gap, n)) :
    gap + n ≤ t.length := by
  obtain ⟨hgap, hn⟩ := leadingComment?_eq_some.1 h
  have hle := (commentLength?_le hn).2
  have hgaps : gapLength t ≤ t.length := length_takeWhile_le isGap t
  rw [List.length_drop] at hle
  omega

theorem commentsLength_le (t : Text) : commentsLength t ≤ t.length := by
  induction t using commentsLength.induct with
  | case1 => rw [commentsLength]; exact Nat.le_refl 0
  | case2 c cs gap n h ih =>
      have hle := leadingComment?_le h
      rw [commentsLength, h]
      rw [List.length_drop] at ih
      rw [List.length_cons] at hle ⊢
      dsimp only
      omega
  | case3 c cs h =>
      rw [commentsLength, h]
      exact Nat.zero_le _

theorem beforeName_le (t : Text) : beforeName t ≤ t.length := by
  have hcomments := commentsLength_le t
  have hgap := length_takeWhile_le isGap (t.drop (commentsLength t))
  rw [List.length_drop] at hgap
  unfold beforeName gapLength
  omega

theorem beforeToken_le (t : Text) : beforeToken t ≤ t.length := by
  have hcomments := commentsLength_le t
  have hgap := length_takeWhile_le isSpace (t.drop (commentsLength t))
  rw [List.length_drop] at hgap
  unfold beforeToken spaceLength
  omega

theorem trimmedLength_le (t : Text) : trimmedLength t ≤ t.length := by
  unfold trimmedLength
  have hle := (List.dropWhile_suffix (l := t.reverse) isSpace).length_le
  rwa [List.length_reverse] at hle

-- ========================================================= attributes

/-- The value of an attribute ends inside the text, and its node is sound.
-/
theorem value?_sound {offset k : Nat} {t : Text} {n : Node} (h : value? offset t = some (n, k)) :
    k ≤ t.length ∧ AllSound (offset + t.length) [n] := by
  cases t with
  | nil => cases h
  | cons q cs =>
      unfold value? at h
      dsimp only at h
      split at h
      · split at h
        · rename_i hclose
          cases h
          have hpos := starts_pos hclose
          rw [List.length_drop] at hpos
          rw [List.length_cons]
          refine ⟨by omega, allSound_leaf rfl (by omega) (by omega)⟩
        · cases h
      · split at h
        · cases h
        · cases h
          have hle := length_takeWhile_le isValueChar (q :: cs)
          exact ⟨hle, allSound_leaf rfl (by omega) (by omega)⟩

/-- An attribute ends inside its text, as does what is read of one without
a value. -/
theorem readAttribute_sound (offset : Nat) (t : Text) :
    match readAttribute offset t with
    | .ok (n, k) => k ≤ t.length ∧ AllSound (offset + t.length) [n] ∧ n.kind = .attribute
    | .error k => k ≤ t.length := by
  have hname := length_takeWhile_le isAttributeChar t
  unfold readAttribute
  dsimp only
  generalize (t.takeWhile isAttributeChar).length = name at hname ⊢
  have hlabel : AllSound (offset + t.length) [.leaf .attributeName offset (offset + name)] :=
    allSound_leaf rfl (by omega) (by omega)
  have hgap := beforeToken_le (t.drop name)
  rw [List.length_drop] at hgap
  generalize beforeToken (t.drop name) = gap at hgap ⊢
  by_cases hequals : Text.starts '=' (t.drop (name + gap)) = true
  · have hpos := starts_pos hequals
    have hstart := beforeToken_le (t.drop (name + gap + 1))
    rw [List.length_drop] at hpos hstart
    rw [if_pos hequals]
    generalize beforeToken (t.drop (name + gap + 1)) = start at hstart ⊢
    cases hvalue : value? (offset + (name + gap + 1 + start)) (t.drop (name + gap + 1 + start)) with
    | some r =>
        obtain ⟨hk, hsound⟩ := value?_sound hvalue
        rw [List.length_drop] at hk hsound
        refine ⟨by omega, allSound_branch rfl (by omega) (by omega) ?_, rfl⟩
        exact allSound_append.2 ⟨hlabel, hsound.mono (by omega)⟩
    | none =>
        dsimp only
        omega
  · rw [if_neg hequals]
    exact ⟨by omega, allSound_branch rfl (by omega) (by omega) hlabel, rfl⟩

/-- What can be said of every body of a tag whose text ends at a limit. -/
structure TagBody.Sound (limit length : Nat) (b : TagBody) : Prop where
  length_le : b.length ≤ length
  children : AllSound limit b.children
  cut_le : ∀ place, b.ending = .cut place → place ≤ limit
  broken : b.ending = .broken → b.children.any (·.flawed) = true

/-- A sound body with sound nodes in front of it is sound. -/
theorem TagBody.Sound.after {limit length n : Nat} {nodes : List Node} {b : TagBody}
    (h : b.Sound limit length) (hnodes : AllSound limit nodes) :
    (b.after nodes n).Sound limit (n + length) where
  length_le := Nat.add_le_add_left h.length_le n
  children := allSound_append.2 ⟨hnodes, h.children⟩
  cut_le := h.cut_le
  broken := by
    intro hbroken
    show (nodes ++ b.children).any _ = true
    rw [List.any_append, h.broken hbroken, Bool.or_true]

/-- The body behind a part of its text, with what that part gives. -/
theorem TagBody.Sound.behind {offset n : Nat} {c : CodePoint} {cs : Text} {nodes : List Node}
    {b : TagBody} (h : b.Sound (offset + n + (cs.drop (n - 1)).length) (cs.drop (n - 1)).length)
    (hn : n ≤ (c :: cs).length) (hnodes : AllSound (offset + (c :: cs).length) nodes) :
    (b.after nodes n).Sound (offset + (c :: cs).length) (c :: cs).length := by
  obtain ⟨hlength, hchildren, hcut, hbroken⟩ := h
  rw [List.length_drop] at hlength hchildren hcut
  rw [List.length_cons] at hn hnodes ⊢
  have hwider : b.Sound (offset + (cs.length + 1)) (cs.length + 1 - n) :=
    ⟨by omega, hchildren.mono (by omega), fun place hplace => by
      have := hcut place hplace
      omega, hbroken⟩
  have hafter := hwider.after (n := n) hnodes
  rwa [Nat.add_sub_cancel' hn] at hafter

/-- A broken body is sound. -/
theorem brokenBody_sound (offset : Nat) (t : Text) :
    (brokenBody offset t).Sound (offset + t.length) t.length := by
  have hrun := length_takeWhile_le (fun (c : CodePoint) => c ≠ '<' && c ≠ '>' && c.val ≠ 0) t
  unfold brokenBody
  dsimp only
  generalize t.takeWhile (fun (c : CodePoint) => c ≠ '<' && c ≠ '>' && c.val ≠ 0) = run at hrun ⊢
  have htrim := trimmedLength_le run
  split
  · rename_i hend
    have hpos := starts_pos (Bool.and_eq_true_iff.1 hend).2
    rw [List.length_drop] at hpos
    exact ⟨by dsimp only; omega, allSound_broken rfl (by omega) (by omega), nofun, nofun⟩
  · exact ⟨Nat.le_refl _, allSound_broken rfl (by omega) (by omega), nofun, fun _ => rfl⟩

/-- Attributes end inside the text of their tag. -/
theorem tagBody_sound {last offset : Nat} {t : Text} (hlast : last ≤ offset) :
    (tagBody last offset t).Sound (offset + t.length) t.length := by
  have hnone : ∀ limit, AllSound limit [] := by
    intro limit
    simp [AllSound, Node.walk]
  induction last, offset, t using tagBody.induct with
  | case1 last offset =>
      rw [tagBody]
      exact ⟨Nat.le_refl 0, hnone _, by rintro place ⟨⟩; exact hlast, by rintro ⟨⟩⟩
  | case2 last offset c cs skip hskip ih =>
      rw [tagBody, if_pos hskip]
      exact (ih (Nat.le_refl _)).behind (commentsLength_le _) (hnone _)
  | case3 last offset c cs skip gap hskip hself =>
      obtain ⟨rest, hrest⟩ := Option.isSome_iff_exists.1 hself
      have hlength := congrArg List.length (Text.after?_eq_some.1 hrest)
      rw [List.length_drop] at hlength
      rw [tagBody, if_neg hskip, if_pos hself]
      refine ⟨?_, hnone _, by rintro _ ⟨⟩, by rintro ⟨⟩⟩
      show gap + 2 ≤ (c :: cs).length
      simp only [List.length_append, List.length_cons] at hlength ⊢
      omega
  | case4 last offset c cs skip gap hskip hself hspace n ih =>
      rw [tagBody, if_neg hskip, if_neg hself, if_pos hspace]
      exact (ih (by omega)).behind (length_takeWhile_le ..) (hnone _)
  | case5 last offset cs skip gap hskip hself hspace =>
      rw [tagBody, if_neg hskip, if_neg hself, if_neg hspace, if_pos rfl]
      exact ⟨Nat.succ_pos _, hnone _, by rintro _ ⟨⟩, by rintro ⟨⟩⟩
  | case6 last offset c cs skip gap hskip hself hspace hclose hattr node n hread ih =>
      have hsound := readAttribute_sound offset (c :: cs)
      rw [hread] at hsound
      rw [tagBody, if_neg hskip, if_neg hself, if_neg hspace, if_neg hclose, if_pos hattr, hread]
      exact (ih (Nat.le_refl _)).behind hsound.1 hsound.2.1
  | case7 last offset c cs skip gap hskip hself hspace hclose hattr k hread =>
      have hsound := readAttribute_sound offset (c :: cs)
      rw [hread] at hsound
      rw [tagBody, if_neg hskip, if_neg hself, if_neg hspace, if_neg hclose, if_pos hattr, hread]
      have hbroken := (brokenBody_sound (offset + k) ((c :: cs).drop k)).after (n := k) (hnone _)
      rwa [List.length_drop, Nat.add_assoc, Nat.add_sub_cancel' hsound] at hbroken
  | case8 last offset c cs skip gap hskip hself hspace hclose hattr =>
      rw [tagBody, if_neg hskip, if_neg hself, if_neg hspace, if_neg hclose, if_neg hattr]
      exact brokenBody_sound offset (c :: cs)

-- ============================================================= pieces

/-- What can be said of every piece whose text ends at a limit. -/
def Piece.Sound (limit : Nat) : Piece → Prop
  | .plain node => AllSound limit [node] ∧ node.kind ≠ .endTag
  | .opening _ _ tag => AllSound limit [tag] ∧ tag.kind = .startTag
  | .complete _ _ element => AllSound limit [element] ∧ element.kind = .element
  | .raw _ _ element => AllSound limit [element] ∧ element.kind ≠ .endTag
  | .closing _ _ start stop label => start ≤ limit ∧ stop ≤ limit ∧ AllSound limit [label]
  | .unfinished _ _ place tag => place ≤ limit ∧ AllSound limit [tag] ∧ tag.kind = .startTag
  | .final node => AllSound limit [node] ∧ node.flawed = true ∧ node.kind ≠ .endTag

/-- What cannot be read is a sound piece. -/
theorem unreadable_sound {offset limit : Nat} {t : Text} (h : offset + t.length ≤ limit) :
    (unreadable offset t).1.Sound limit :=
  ⟨allSound_broken rfl (by omega) h, rfl, nofun⟩

/-- An end tag ends inside the text, and the node of its name is sound. -/
theorem endTag?_sound {offset n : Nat} {t : Text} {name : TagName} {tight : Bool} {label : Node}
    (h : endTag? offset t = some (name, tight, label, n)) :
    n ≤ t.length ∧ AllSound (offset + t.length) [label] := by
  have hgap := beforeName_le t
  unfold endTag? at h
  dsimp only at h
  generalize beforeName t = gap at hgap h
  have hlabel := length_takeWhile_le isTagChar (t.drop gap)
  rw [List.length_drop] at hlabel
  generalize (t.drop gap).takeWhile isTagChar = word at hlabel h
  split at h
  · rename_i hend
    cases h
    have hpos := starts_pos (Bool.and_eq_true_iff.1 hend).2
    rw [List.length_drop] at hpos
    exact ⟨by omega, allSound_leaf rfl (by omega) (by omega)⟩
  · cases h

/-- Raw text ends before its delimiter. -/
theorem rawLength?_le {delimiter left t : Text} {length matched n : Nat}
    (hleft : matched + left.length = delimiter.length)
    (h : rawLength? delimiter length matched left t = some n) :
    n + delimiter.length ≤ length + matched + t.length := by
  induction t generalizing length matched left with
  | nil =>
      cases left with
      | nil =>
          cases h
          simp only [List.length_nil] at hleft ⊢
          omega
      | cons l left => cases h
  | cons c cs ih =>
      cases left with
      | nil =>
          cases h
          simp only [List.length_nil] at hleft
          omega
      | cons l left =>
          rw [rawLength?] at h
          rw [List.length_cons] at hleft ⊢
          split at h
          · have hle := ih (by omega) h
            omega
          · have hle := ih (by omega) h
            omega

/-- An element of raw text ends inside the text and is sound. -/
theorem rawElement?_sound {kind : Kind} {name : String} {tag element : Node} {t : Text} {n : Nat}
    (hkind : ∀ start stop ns, (Node.branch kind start stop ns).isFault = false)
    (htag : AllSound (tag.stop + t.length) [tag])
    (h : rawElement? kind name tag t = some (element, n)) :
    n ≤ t.length ∧ AllSound (tag.stop + t.length) [element] ∧ element.kind = kind := by
  have hstart := (htag tag (Node.mem_walk_of_mem (by simp))).start_le
  unfold rawElement? at h
  simp only [Option.bind_eq_bind, Option.bind_eq_some_iff] at h
  obtain ⟨k, hk, ⟨closer, tight, label, j⟩, hclose, h⟩ := h
  have hraw := rawLength?_le (by simp) hk
  obtain ⟨hj, hlabel⟩ := endTag?_sound hclose
  simp only [List.length_cons, List.length_map, List.length_drop] at hraw hj hlabel
  split at h
  · cases h
    refine ⟨by omega, allSound_branch (hkind ..) hstart (by omega) ?_, rfl⟩
    refine allSound_append.2 ⟨htag, allSound_append.2 ⟨allSound_leaf rfl ?_ ?_, ?_⟩⟩
    · omega
    · omega
    · exact allSound_branch rfl (by omega) (by omega) (hlabel.mono (by omega))
  · cases h

-- ========================================================= start tags

/-- The name of a tag as it is written, after the bracket. -/
def tagLabel (t : Text) : Text := (t.drop (beforeName t)).takeWhile isTagChar

/-- The length of what stands between the bracket and the attributes. -/
def headLength (t : Text) : Nat := beforeName t + (tagLabel t).length

/-- The attributes and the end of a start tag. -/
def bodyOf (offset : Nat) (t : Text) : TagBody :=
  tagBody (offset + 1 + headLength t) (offset + 1 + headLength t) (t.drop (headLength t))

/-- The length of a start tag with its bracket. -/
def tagLength (offset : Nat) (t : Text) : Nat := 1 + headLength t + (bodyOf offset t).length

/-- The node of a start tag. -/
def tagNode (offset : Nat) (t : Text) (kind : Kind) : Node :=
  .branch kind offset (offset + tagLength offset t)
    (.leaf .tagName (offset + 1 + beforeName t) (offset + 1 + headLength t)
      :: (bodyOf offset t).children)

/-- A start tag by its parts. -/
theorem startTag_eq (offset : Nat) (t : Text) :
    startTag offset t
      = if (tagLabel t).isEmpty then unreadable offset ('<' :: t)
        else match (bodyOf offset t).ending, rawKind? (TagName.ofText (tagLabel t)) with
          | .broken, _ => (.final (tagNode offset t .startTag), tagLength offset t)
          | .cut place, none =>
              (.unfinished (TagName.ofText (tagLabel t)) (beforeName t = 0) place
                (tagNode offset t .startTag), tagLength offset t)
          | .opened, none =>
              (.opening (TagName.ofText (tagLabel t)) (beforeName t = 0)
                (tagNode offset t .startTag), tagLength offset t)
          | .selfClosed, none =>
              (.complete (TagName.ofText (tagLabel t)) (beforeName t = 0)
                (.branch .element offset (offset + tagLength offset t)
                  [tagNode offset t .selfClosingTag]), tagLength offset t)
          | .opened, some (word, kind) =>
              match rawElement? kind word (tagNode offset t .startTag)
                  (t.drop (tagLength offset t - 1)) with
              | some (element, k) =>
                  (.raw (TagName.ofText (tagLabel t)) (beforeName t = 0) element,
                    tagLength offset t + k)
              | none => unreadable offset ('<' :: t)
          | _, some _ => unreadable offset ('<' :: t) := by
  unfold startTag tagNode tagLength bodyOf headLength
  simp only [← Nat.add_assoc]
  rfl

/-- The elements of raw text are scripts and styles. -/
theorem kind_of_rawKind? {name : TagName} {word : String} {kind : Kind}
    (h : rawKind? name = some (word, kind)) : kind = .script ∨ kind = .style := by
  unfold rawKind? at h
  split at h
  · cases h; exact .inl rfl
  · cases h; exact .inr rfl
  · cases h

theorem headLength_le (t : Text) : headLength t ≤ t.length := by
  have hgap := beforeName_le t
  have hlabel := length_takeWhile_le isTagChar (t.drop (beforeName t))
  rw [List.length_drop] at hlabel
  unfold headLength tagLabel
  omega

/-- The body of a start tag is sound behind the name. -/
theorem bodyOf_sound (offset : Nat) (t : Text) :
    (bodyOf offset t).Sound (offset + 1 + t.length) (t.length - headLength t) := by
  have hbody := tagBody_sound (t := t.drop (headLength t)) (Nat.le_refl (offset + 1 + headLength t))
  rw [List.length_drop, Nat.add_assoc (offset + 1), Nat.add_sub_cancel' (headLength_le t)] at hbody
  exact hbody

theorem tagLength_le (offset : Nat) (t : Text) : tagLength offset t ≤ t.length + 1 := by
  have hhead := headLength_le t
  have hbody := (bodyOf_sound offset t).length_le
  unfold tagLength
  omega

/-- The node of a start tag is sound. -/
theorem tagNode_sound {offset : Nat} {t : Text} {kind : Kind}
    (hkind : (tagNode offset t kind).isFault = false) :
    AllSound (offset + 1 + t.length) [tagNode offset t kind] := by
  have hlength := tagLength_le offset t
  have hhead := headLength_le t
  have hgap := beforeName_le t
  refine allSound_branch hkind (by omega) (by omega) (allSound_cons.2 ⟨?_, ?_⟩)
  · exact allSound_leaf rfl (by omega) (by omega)
  · exact (bodyOf_sound offset t).children

/-- A start tag is a sound piece that ends inside the text. -/
theorem startTag_sound (offset : Nat) (t : Text) :
    (startTag offset t).2 ≤ t.length + 1
      ∧ (startTag offset t).1.Sound (offset + 1 + t.length) := by
  have hlength := tagLength_le offset t
  have hbody := bodyOf_sound offset t
  have htag : AllSound (offset + 1 + t.length) [tagNode offset t .startTag] := tagNode_sound rfl
  -- three of the forms come to nothing but a malformed rest
  have hunreadable : (unreadable offset ('<' :: t)).2 ≤ t.length + 1
      ∧ (unreadable offset ('<' :: t)).1.Sound (offset + 1 + t.length) :=
    ⟨Nat.le_refl _, unreadable_sound (by rw [List.length_cons]; omega)⟩
  rw [startTag_eq]
  split
  · exact hunreadable
  cases hending : (bodyOf offset t).ending with
  | broken =>
      refine ⟨hlength, htag, ?_, nofun⟩
      unfold tagNode Node.branch
      rw [List.any_cons, hbody.broken hending, Bool.or_true]
  | cut place =>
      cases rawKind? (TagName.ofText (tagLabel t)) with
      | none => exact ⟨hlength, hbody.cut_le place hending, htag, rfl⟩
      | some r => exact hunreadable
  | selfClosed =>
      cases rawKind? (TagName.ofText (tagLabel t)) with
      | none =>
          exact ⟨hlength, allSound_branch rfl (by omega) (by omega) (tagNode_sound rfl), rfl⟩
      | some r => exact hunreadable
  | opened =>
      cases hraw : rawKind? (TagName.ofText (tagLabel t)) with
      | none => exact ⟨hlength, htag, rfl⟩
      | some r =>
          -- raw text: the element ends where its end tag ends, and that has to be inside the text
          obtain ⟨word, kind⟩ := r
          have hkind : (∀ start stop ns, (Node.branch kind start stop ns).isFault = false)
              ∧ kind ≠ .endTag := by
            rcases kind_of_rawKind? hraw with rfl | rfl
            · exact ⟨fun _ _ _ => rfl, nofun⟩
            · exact ⟨fun _ _ _ => rfl, nofun⟩
          dsimp only
          cases helement : rawElement? kind word (tagNode offset t .startTag)
              (t.drop (tagLength offset t - 1)) with
          | none => exact hunreadable
          | some r =>
              have hstop : (tagNode offset t .startTag).stop + (t.drop (tagLength offset t - 1)).length
                  = offset + 1 + t.length := by
                show offset + tagLength offset t + _ = _
                rw [List.length_drop]
                have hpos : 0 < tagLength offset t := by
                  unfold tagLength
                  omega
                omega
              obtain ⟨hk, hsound, hkind'⟩ := rawElement?_sound hkind.1 (hstop ▸ htag) helement
              rw [hstop] at hsound
              rw [List.length_drop] at hk
              refine ⟨?_, hsound, ?_⟩
              · show tagLength offset t + r.2 ≤ t.length + 1
                omega
              · rw [hkind']
                exact hkind.2

-- ======================================================= other pieces

theorem doctypeLength?_le {t : Text} {n : Nat} (h : doctypeLength? t = some n) : n ≤ t.length := by
  unfold doctypeLength? at h
  dsimp only at h
  split at h
  · rename_i hend
    cases h
    have hpos := starts_pos (Bool.and_eq_true_iff.1 hend).2
    rw [List.length_drop, List.length_drop] at hpos
    omega
  · cases h

/-- What begins with a bracket is a sound piece that ends inside the text.
-/
theorem bracketPiece_sound (offset : Nat) (t : Text) :
    (bracketPiece offset t).2 ≤ t.length + 1
      ∧ (bracketPiece offset t).1.Sound (offset + 1 + t.length) := by
  have hunreadable : (unreadable offset ('<' :: t)).2 ≤ t.length + 1
      ∧ (unreadable offset ('<' :: t)).1.Sound (offset + 1 + t.length) :=
    ⟨Nat.le_refl _, unreadable_sound (by rw [List.length_cons]; omega)⟩
  unfold bracketPiece
  split
  · rename_i hstart
    have hpos := starts_pos hstart
    cases hdoctype : doctypeLength? (t.drop 1) with
    | none => exact hunreadable
    | some n =>
        have hn := doctypeLength?_le hdoctype
        rw [List.length_drop] at hn
        refine ⟨by dsimp only; omega, allSound_leaf rfl (by omega) (by omega), nofun⟩
  · split
    · rename_i hstart
      have hpos := starts_pos hstart
      cases hend : endTag? (offset + 2) (t.drop 1) with
      | none => exact hunreadable
      | some r =>
          obtain ⟨name, tight, label, n⟩ := r
          obtain ⟨hn, hlabel⟩ := endTag?_sound hend
          rw [List.length_drop] at hn hlabel
          exact ⟨by dsimp only; omega, by omega, by omega, hlabel.mono (by omega)⟩
    · exact startTag_sound offset t

theorem entityLength?_le {t : Text} {n : Nat} (h : entityLength? t = some n) : n ≤ t.length := by
  have hclosed : ∀ k ≤ t.length, (if Text.starts ';' (t.drop k) then k + 1 else k) ≤ t.length := by
    intro k hk
    split
    · rename_i hsemicolon
      have hpos := starts_pos hsemicolon
      rw [List.length_drop] at hpos
      omega
    · exact hk
  -- a run within a window of the text, which is not empty
  have hrun : ∀ (p : CodePoint → Bool) (skip width : Nat),
      (((t.drop skip).take width).takeWhile p).isEmpty = false →
        (((t.drop skip).take width).takeWhile p).length + skip ≤ t.length := by
    intro p skip width hne
    have hle := length_takeWhile_le p ((t.drop skip).take width)
    rw [List.length_take, List.length_drop] at hle
    have hpos : 0 < (((t.drop skip).take width).takeWhile p).length := by
      rw [List.isEmpty_eq_false_iff] at hne
      exact List.length_pos_iff.2 hne
    omega
  unfold entityLength? at h
  dsimp only at h
  split at h
  · split at h
    · split at h
      · cases h
      · rename_i hne
        cases h
        exact hclosed _ (hrun _ 2 6 (by simpa using hne))
    · split at h
      · cases h
      · rename_i hne
        cases h
        exact hclosed _ (hrun _ 1 5 (by simpa using hne))
  · split at h
    · cases h
    · rename_i hne
      cases h
      exact hclosed _ (hrun _ 0 30 (by simpa using hne))

theorem brokenLength_le {passed stop : Nat} (t : Text) (hstop : stop ≤ passed) :
    brokenLength passed stop t ≤ passed + t.length := by
  induction passed, stop, t using brokenLength.induct with
  | case1 passed stop => rw [brokenLength]; omega
  | case2 passed stop cs n hcomment ih =>
      have hn := commentLength?_le hcomment
      have hle := ih (by omega)
      rw [brokenLength, if_pos rfl, hcomment]
      rw [List.length_drop] at hle
      rw [List.length_cons] at hn ⊢
      dsimp only
      omega
  | case3 passed stop cs hcomment =>
      rw [brokenLength, if_pos rfl, hcomment]
      dsimp only
      omega
  | case4 passed stop c cs hopen hentity =>
      rw [brokenLength, if_neg hopen, if_pos hentity]
      omega
  | case5 passed stop c cs hopen hentity ih =>
      have hle := ih (by split <;> omega)
      rw [dite_eq_ite] at hle
      rw [brokenLength, if_neg hopen, if_neg hentity]
      rw [List.length_cons]
      omega

/-- Every piece is sound and ends inside the text, whatever it begins with.
-/
theorem nextPiece_sound (offset : Nat) (c : CodePoint) (cs : Text) :
    (nextPiece offset c cs).2 ≤ cs.length + 1
      ∧ (nextPiece offset c cs).1.Sound (offset + 1 + cs.length) := by
  have hbroken : (brokenText offset cs).2 ≤ cs.length + 1
      ∧ (brokenText offset cs).1.Sound (offset + 1 + cs.length) := by
    have hle := brokenLength_le cs (Nat.le_refl 1)
    unfold brokenText
    exact ⟨by dsimp only; omega, allSound_broken rfl (by omega) (by omega), by rintro ⟨⟩⟩
  unfold nextPiece
  split
  · rename_i gap n hlead
    have hle := leadingComment?_le hlead
    rw [List.length_cons] at hle
    exact ⟨hle, allSound_leaf rfl (by omega) (by omega), by rintro ⟨⟩⟩
  · split
    · exact bracketPiece_sound offset cs
    · split
      · cases hentity : entityLength? cs with
        | none => exact hbroken
        | some n =>
            have hn := entityLength?_le hentity
            exact ⟨by dsimp only; omega, allSound_leaf rfl (by omega) (by omega), by rintro ⟨⟩⟩
      · split
        · have hrun := length_takeWhile_le isTextChar (c :: cs)
          have htrim := trimmedLength_le ((c :: cs).takeWhile isTextChar)
          rw [List.length_cons] at hrun
          exact ⟨hrun, allSound_leaf rfl (by omega) (by omega), by rintro ⟨⟩⟩
        · exact hbroken

theorem Piece.Sound.mono {limit wider : Nat} {p : Piece} (h : p.Sound limit)
    (hle : limit ≤ wider) : p.Sound wider := by
  cases p with
  | closing name tight start stop label =>
      exact ⟨Nat.le_trans h.1 hle, Nat.le_trans h.2.1 hle, h.2.2.mono hle⟩
  | unfinished name tight place tag => exact ⟨Nat.le_trans h.1 hle, h.2.1.mono hle, h.2.2⟩
  | _ => exact ⟨h.1.mono hle, h.2⟩

/-- Every piece lies inside its text. -/
theorem pieces_sound (offset : Nat) (t : Text) :
    ∀ p ∈ pieces offset t, p.Sound (offset + t.length) := by
  induction offset, t using pieces.induct with
  | case1 => simp [pieces]
  | case2 offset c cs hspace ih =>
      rw [pieces, if_pos hspace, List.length_cons]
      exact fun p hp => (ih p hp).mono (by omega)
  | case3 offset c cs hspace node n hnext =>
      have hsound := (nextPiece_sound offset c cs).2
      rw [pieces, if_neg hspace, hnext, List.length_cons]
      rw [hnext] at hsound
      intro p hp
      rw [List.mem_singleton.1 hp]
      exact hsound.mono (by omega)
  | case4 offset c cs hspace piece n hfinal hnext ih =>
      obtain ⟨hn, hsound⟩ := nextPiece_sound offset c cs
      rw [hnext] at hn hsound
      rw [pieces_of_nextPiece hspace hnext hfinal, List.length_cons]
      rw [List.length_drop] at ih
      intro p hp
      rcases List.mem_cons.1 hp with rfl | hp
      · exact hsound.mono (by omega)
      · exact (ih p hp).mono (by dsimp only at hn; omega)

end KeyHarvest.Markup
