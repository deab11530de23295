/-
Trees in order. In the tree of every text the children of a node lie one
behind the other inside it, an element begins with its tag, and nothing
stands behind its end tag (`laid_parse`).

The nodes of a stack stand in one line: what is finished, then the tags and
the children of the open elements, the outermost first (`Nest.line`).
A piece goes to the end of the line. An element that ends takes the place
of the end of the line, from its tag on. So the line stays in order, and
with it everything below its nodes (`Nest.Laid.step`).
-/
import KeyHarvest.Proofs.Markup.Behind

namespace KeyHarvest.Markup

open Node (walk walk_singleton walk_cons walk_append)

-- ============================================================== trees

/-- The tag that an element begins with. -/
def Node.openingTag (n : Node) : Node := n.children.headD (.leaf .startTag n.start n.start)

/-- The children of a node lie in order inside it and do not overlap. An
element begins with its tag, and nothing stands behind its end tag. -/
structure Node.Laid (n : Node) : Prop where
  inside : ∀ c ∈ n.children, n.start ≤ c.start ∧ c.start ≤ c.stop ∧ c.stop ≤ n.stop
  apart : n.children.Pairwise fun a b => a.stop ≤ b.start
  tagged : n.kind = .element →
    ∃ tag ∈ n.children.head?, tag.kind = .startTag ∨ tag.kind = .selfClosingTag
  ended : n.kind = .element → ∀ c ∈ n.children.dropLast, c.kind ≠ .endTag

/-- Trees that lie in order between two places, as does all below them. -/
structure InOrder (a b : Nat) (ns : List Node) : Prop where
  le : a ≤ b
  inside : ∀ n ∈ ns, a ≤ n.start ∧ n.start ≤ n.stop ∧ n.stop ≤ b
  apart : ns.Pairwise fun m n => m.stop ≤ n.start
  laid : ∀ n ∈ walk ns, n.Laid

variable {a b m : Nat} {ns ms : List Node} {n : Node}

theorem inOrder_nil (h : a ≤ b) : InOrder a b [] := by
  refine ⟨h, nofun, .nil, ?_⟩
  rw [walk]
  nofun

theorem InOrder.mono {a' b' : Nat} (h : InOrder a b ns) (ha : a' ≤ a) (hb : b ≤ b') :
    InOrder a' b' ns := by
  refine ⟨Nat.le_trans ha (Nat.le_trans h.le hb), fun n hn => ?_, h.apart, h.laid⟩
  obtain ⟨hstart, hforward, hstop⟩ := h.inside n hn
  exact ⟨Nat.le_trans ha hstart, hforward, Nat.le_trans hstop hb⟩

theorem InOrder.append (h : InOrder a m ns) (h' : InOrder m b ms) : InOrder a b (ns ++ ms) where
  le := Nat.le_trans h.le h'.le
  inside := by
    intro n hn
    rcases List.mem_append.1 hn with hn | hn
    · exact (h.mono (Nat.le_refl a) h'.le).inside n hn
    · exact (h'.mono h.le (Nat.le_refl b)).inside n hn
  apart := by
    refine List.pairwise_append.2 ⟨h.apart, h'.apart, fun x hx y hy => ?_⟩
    exact Nat.le_trans (h.inside x hx).2.2 (h'.inside y hy).1
  laid := by
    rw [walk_append]
    exact List.forall_mem_append.2 ⟨h.laid, h'.laid⟩

/-- A node in front of nodes in order behind it. -/
theorem InOrder.cons (h : InOrder a m [n]) (h' : InOrder m b ns) : InOrder a b (n :: ns) :=
  h.append h'

/-- Trees in order can be parted at each of them. -/
theorem InOrder.split (h : InOrder a b (ns ++ n :: ms)) :
    InOrder a n.start ns ∧ InOrder n.start b (n :: ms) := by
  obtain ⟨-, hinside, hapart, hlaid⟩ := h
  obtain ⟨hbefore, hbehind, hacross⟩ := List.pairwise_append.1 hapart
  rw [walk_append, List.forall_mem_append] at hlaid
  obtain ⟨hstart, hforward, hstop⟩ := hinside n (by simp)
  constructor
  · refine ⟨hstart, fun x hx => ?_, hbefore, hlaid.1⟩
    obtain ⟨hx', hforward', -⟩ := hinside x (by simp [hx])
    exact ⟨hx', hforward', hacross x hx n (by simp)⟩
  · refine ⟨Nat.le_trans hforward hstop, fun x hx => ?_, hbehind, hlaid.2⟩
    have hx' := hinside x (List.mem_append_right ns hx)
    rcases List.mem_cons.1 hx with rfl | hmem
    · exact ⟨Nat.le_refl _, hx'.2⟩
    · exact ⟨Nat.le_trans hforward ((List.pairwise_cons.1 hbehind).1 x hmem), hx'.2⟩

/-- Behind the first of some trees in order are the others. -/
theorem InOrder.rest (h : InOrder a b (n :: ns)) : InOrder n.stop b ns := by
  obtain ⟨hbehind, hapart⟩ := List.pairwise_cons.1 h.apart
  refine ⟨(h.inside n List.mem_cons_self).2.2, fun x hx => ?_, hapart, fun x hx => h.laid x ?_⟩
  · exact ⟨hbehind x hx, (h.inside x (List.mem_cons_of_mem n hx)).2⟩
  · rw [walk_cons]
    exact List.mem_append_right _ hx

/-- Where one node lies between two places, it lies from its beginning on. -/
theorem InOrder.self (h : InOrder a b [n]) : a ≤ n.start ∧ InOrder n.start b [n] := by
  have h : InOrder a b ([] ++ [n]) := h
  exact ⟨h.split.1.le, h.split.2⟩

/-- A node that is laid around children in order is in order itself. -/
theorem inOrder_of_children (h : InOrder n.start n.stop n.children) (hlaid : n.Laid) :
    InOrder n.start n.stop [n] := by
  refine ⟨h.le, ?_, List.pairwise_singleton _ n, ?_⟩
  · exact List.forall_mem_singleton.2 ⟨Nat.le_refl _, h.le, Nat.le_refl _⟩
  · rw [walk_singleton]
    exact List.forall_mem_cons.2 ⟨hlaid, h.laid⟩

/-- A node that is no element is in order with its children. -/
theorem inOrder_branch {kind : Kind} (hkind : kind ≠ .element) (h : InOrder a b ns) :
    InOrder a b [.branch kind a b ns] :=
  inOrder_of_children (n := .branch kind a b ns) h
    ⟨h.inside, h.apart, fun helement => absurd helement hkind, fun helement => absurd helement hkind⟩

/-- An element is in order when its tag and what stands behind it are, and
only the very last is an end tag. -/
theorem InOrder.element {tag : Node} {flawed : Bool} (h : InOrder a b (tag :: ns))
    (htag : tag.kind = .startTag ∨ tag.kind = .selfClosingTag)
    (hend : ∀ c ∈ (tag :: ns).dropLast, c.kind ≠ .endTag) :
    InOrder a b [⟨.element, a, b, flawed, tag :: ns⟩] :=
  inOrder_of_children (n := ⟨.element, a, b, flawed, tag :: ns⟩) h
    ⟨h.inside, h.apart, fun _ => ⟨tag, rfl, htag⟩, fun _ => hend⟩

variable {kind : Kind} {start stop : Nat}

/-- A leaf inside its bounds is in order. -/
theorem inOrder_leaf (hkind : kind ≠ .element) (hstart : a ≤ start) (hforward : start ≤ stop)
    (hstop : stop ≤ b) : InOrder a b [.leaf kind start stop] :=
  (inOrder_branch hkind (inOrder_nil hforward)).mono hstart hstop

/-- A malformed place inside its bounds is in order. -/
theorem inOrder_broken (hkind : kind ≠ .element) (hstart : a ≤ start) (hforward : start ≤ stop)
    (hstop : stop ≤ b) : InOrder a b [.broken kind start stop] := by
  have hinside : InOrder start stop (Node.broken kind start stop).children := inOrder_nil hforward
  refine (inOrder_of_children (n := .broken kind start stop) hinside ?_).mono hstart hstop
  exact ⟨nofun, .nil, fun helement => absurd helement hkind, fun helement => absurd helement hkind⟩

-- =============================================================== tags

/-- The attributes of a tag lie in order behind what stands before them.
When the text ends in the tag, they lie before the place where its end is
missed. -/
structure TagBody.Laid (last stop : Nat) (body : TagBody) : Prop where
  children : InOrder last stop body.children
  cut : ∀ place, body.ending = .cut place → InOrder last place body.children ∧ place ≤ stop

/-- A body with nodes in order in front of it is laid. -/
theorem TagBody.Laid.after {last between stop n : Nat} {body : TagBody}
    (h : body.Laid between stop) (hns : InOrder last between ns) :
    (body.after ns n).Laid last stop where
  children := hns.append h.children
  cut := by
    intro place hplace
    obtain ⟨hinside, hle⟩ := h.cut place hplace
    exact ⟨hns.append hinside, hle⟩

theorem TagBody.Laid.mono {last last' stop : Nat} {body : TagBody} (h : body.Laid last stop)
    (hle : last' ≤ last) : body.Laid last' stop where
  children := h.children.mono hle (Nat.le_refl _)
  cut := by
    intro place hplace
    obtain ⟨hinside, hstop⟩ := h.cut place hplace
    exact ⟨hinside.mono hle (Nat.le_refl _), hstop⟩

/-- The value of an attribute lies where it was read. -/
theorem inOrder_value? {offset k : Nat} {t : Text} (h : value? offset t = some (n, k)) :
    InOrder offset (offset + k) [n] := by
  cases t with
  | nil => cases h
  | cons q cs =>
      unfold value? at h
      dsimp only at h
      split at h
      · split at h
        · cases h
          exact inOrder_leaf nofun (by omega) (by omega) (by omega)
        · cases h
      · split at h
        · cases h
        · cases h
          exact inOrder_leaf nofun (Nat.le_refl _) (Nat.le_add_right _ _) (Nat.le_refl _)

/-- An attribute lies where it was read. -/
theorem inOrder_readAttribute {offset k : Nat} {t : Text}
    (h : readAttribute offset t = .ok (n, k)) : InOrder offset (offset + k) [n] := by
  unfold readAttribute at h
  dsimp only at h
  generalize (t.takeWhile isAttributeChar).length = name at h
  have hlabel : InOrder offset (offset + name) [.leaf .attributeName offset (offset + name)] :=
    inOrder_leaf nofun (Nat.le_refl _) (Nat.le_add_right _ _) (Nat.le_refl _)
  split at h
  · split at h
    · next value k hvalue =>
        cases h
        rw [← Nat.add_assoc offset]
        refine inOrder_branch nofun (hlabel.cons ((inOrder_value? hvalue).mono ?_ (Nat.le_refl _)))
        omega
    · cases h
  · cases h
    exact inOrder_branch nofun hlabel

/-- A broken body is laid. -/
theorem brokenBody_laid (offset : Nat) (t : Text) :
    (brokenBody offset t).Laid offset (offset + (brokenBody offset t).length) := by
  unfold brokenBody
  dsimp only
  generalize t.takeWhile (fun (c : CodePoint) => c ≠ '<' && c ≠ '>' && c.val ≠ 0) = run
  have htrim := trimmedLength_le run
  split
  · refine ⟨inOrder_broken nofun (Nat.le_refl _) (Nat.le_add_right _ _) ?_, nofun⟩
    exact Nat.add_le_add_left (Nat.le_succ_of_le htrim) offset
  · exact ⟨inOrder_broken nofun (Nat.le_refl _) (Nat.le_add_right _ _) (Nat.le_refl _), nofun⟩

/-- The attributes of a tag are read from left to right. -/
theorem tagBody_laid {last offset : Nat} {t : Text} (hlast : last ≤ offset) :
    (tagBody last offset t).Laid last (offset + (tagBody last offset t).length) := by
  induction last, offset, t using tagBody.induct with
  | case1 last offset =>
      rw [tagBody]
      refine ⟨inOrder_nil hlast, fun place hplace => ?_⟩
      cases hplace
      exact ⟨inOrder_nil (Nat.le_refl _), hlast⟩
  | case2 last offset c cs skip hskip ih =>
      rw [tagBody, if_pos hskip]
      have hafter := (ih (Nat.le_refl _)).after (n := skip)
        (inOrder_nil (Nat.le_trans hlast (Nat.le_add_right offset skip)))
      rwa [Nat.add_assoc] at hafter
  | case3 last offset c cs skip gap hskip hself =>
      rw [tagBody, if_neg hskip, if_pos hself]
      refine ⟨inOrder_nil (Nat.le_trans hlast (Nat.le_add_right _ _)), fun place hplace => ?_⟩
      cases hplace
  | case4 last offset c cs skip gap hskip hself hspace n ih =>
      rw [tagBody, if_neg hskip, if_neg hself, if_pos hspace]
      have hafter := (ih (Nat.le_trans hlast (Nat.le_add_right offset n))).after (n := n)
        (inOrder_nil (Nat.le_refl last))
      rwa [Nat.add_assoc] at hafter
  | case5 last offset cs skip gap hskip hself hspace =>
      rw [tagBody, if_neg hskip, if_neg hself, if_neg hspace, if_pos rfl]
      refine ⟨inOrder_nil (Nat.le_trans hlast (Nat.le_add_right _ _)), fun place hplace => ?_⟩
      cases hplace
  | case6 last offset c cs skip gap hskip hself hspace hclose hattr node n hread ih =>
      rw [tagBody, if_neg hskip, if_neg hself, if_neg hspace, if_neg hclose, if_pos hattr, hread]
      have hafter := (ih (Nat.le_refl _)).after (n := n)
        ((inOrder_readAttribute hread).mono hlast (Nat.le_refl _))
      rwa [Nat.add_assoc] at hafter
  | case7 last offset c cs skip gap hskip hself hspace hclose hattr k hread =>
      rw [tagBody, if_neg hskip, if_neg hself, if_neg hspace, if_neg hclose, if_pos hattr, hread]
      have hafter := (brokenBody_laid (offset + k) ((c :: cs).drop k)).after (n := k)
        (inOrder_nil (Nat.le_trans hlast (Nat.le_add_right offset k)))
      rwa [Nat.add_assoc] at hafter
  | case8 last offset c cs skip gap hskip hself hspace hclose hattr =>
      rw [tagBody, if_neg hskip, if_neg hself, if_neg hspace, if_neg hclose, if_neg hattr]
      exact (brokenBody_laid offset (c :: cs)).mono hlast

/-- The name of an end tag lies inside the tag. -/
theorem inOrder_endTag? {offset k : Nat} {t : Text} {name : TagName} {tight : Bool} {label : Node}
    (h : endTag? offset t = some (name, tight, label, k)) :
    InOrder offset (offset + k) [label] := by
  unfold endTag? at h
  dsimp only at h
  split at h
  · cases h
    exact inOrder_leaf nofun (by omega) (by omega) (by omega)
  · cases h

/-- An element of raw text lies between its start tag and the end of its end
tag. -/
theorem inOrder_rawElement? {kind : Kind} {name : String} {tag element : Node} {t : Text} {k : Nat}
    (hkind : kind ≠ .element) (htag : InOrder tag.start tag.stop [tag])
    (h : rawElement? kind name tag t = some (element, k)) :
    InOrder tag.start (tag.stop + k) [element] := by
  unfold rawElement? at h
  simp only [Option.bind_eq_bind, Option.bind_eq_some_iff] at h
  obtain ⟨n, -, ⟨closer, tight, label, j⟩, hclose, h⟩ := h
  split at h
  · cases h
    have hraw : InOrder tag.stop (tag.stop + n) [.leaf .rawText tag.stop (tag.stop + n)] :=
      inOrder_leaf nofun (Nat.le_refl _) (Nat.le_add_right _ _) (Nat.le_refl _)
    have hend : InOrder (tag.stop + n) (tag.stop + n + 2 + j)
        [.branch .endTag (tag.stop + n) (tag.stop + n + 2 + j) [label]] := by
      refine inOrder_branch nofun ?_
      exact (inOrder_endTag? hclose).mono (Nat.le_add_right _ _) (Nat.le_refl _)
    refine (inOrder_branch hkind (htag.cons (hraw.cons hend))).mono (Nat.le_refl _) ?_
    omega
  · cases h

-- ============================================================= pieces

/-- A piece that lies between two places, with its nodes in order. -/
def Piece.Laid (a b : Nat) : Piece → Prop
  | .plain node => InOrder a b [node]
  | .opening _ _ tag => InOrder a b [tag]
  | .complete _ _ element => InOrder a b [element]
  | .raw _ _ element => InOrder a b [element]
  | .closing _ _ start stop label => a ≤ start ∧ InOrder start stop [label] ∧ stop ≤ b
  | .unfinished _ _ place tag => a ≤ tag.start ∧ tag.stop ≤ b
      ∧ InOrder tag.start place tag.children ∧ place ≤ tag.stop
  | .final node => InOrder a b [node]

theorem Piece.Laid.mono {a' b' : Nat} {p : Piece} (h : p.Laid a b) (ha : a' ≤ a) (hb : b ≤ b') :
    p.Laid a' b' := by
  cases p with
  | closing name tight start stop label =>
      exact ⟨Nat.le_trans ha h.1, h.2.1, Nat.le_trans h.2.2 hb⟩
  | unfinished name tight place tag =>
      exact ⟨Nat.le_trans ha h.1, Nat.le_trans h.2.1 hb, h.2.2⟩
  | _ => exact InOrder.mono h ha hb

/-- Pieces that lie one behind the other between two places. -/
def PiecesLaid (a b : Nat) : List Piece → Prop
  | [] => a ≤ b
  | p :: ps => ∃ m, p.Laid a m ∧ PiecesLaid m b ps

theorem PiecesLaid.mono {a' : Nat} {ps : List Piece} (h : PiecesLaid a b ps) (ha : a' ≤ a) :
    PiecesLaid a' b ps := by
  cases ps with
  | nil => exact Nat.le_trans ha h
  | cons p ps =>
      obtain ⟨m, hp, hps⟩ := h
      exact ⟨m, hp.mono ha (Nat.le_refl m), hps⟩

/-- The name and the body of a start tag are in order inside it, and before
the place where its end is missed. -/
theorem tagNode_inside (offset : Nat) (t : Text) :
    InOrder offset (offset + tagLength offset t)
        (.leaf .tagName (offset + 1 + beforeName t) (offset + 1 + headLength t)
          :: (bodyOf offset t).children)
      ∧ ∀ place, (bodyOf offset t).ending = .cut place →
        InOrder offset place
          (.leaf .tagName (offset + 1 + beforeName t) (offset + 1 + headLength t)
            :: (bodyOf offset t).children)
        ∧ place ≤ offset + tagLength offset t := by
  have hbody : (bodyOf offset t).Laid (offset + 1 + headLength t) (offset + tagLength offset t) := by
    have hlaid := tagBody_laid (t := t.drop (headLength t)) (Nat.le_refl (offset + 1 + headLength t))
    have hstop : offset + 1 + headLength t + (bodyOf offset t).length
        = offset + tagLength offset t := by
      rw [tagLength]
      omega
    exact hstop ▸ hlaid
  have hlabel : InOrder offset (offset + 1 + headLength t)
      [.leaf .tagName (offset + 1 + beforeName t) (offset + 1 + headLength t)] := by
    refine inOrder_leaf nofun (by omega) ?_ (Nat.le_refl _)
    rw [headLength]
    omega
  refine ⟨hlabel.cons hbody.children, fun place hplace => ?_⟩
  obtain ⟨hinside, hle⟩ := hbody.cut place hplace
  exact ⟨hlabel.cons hinside, hle⟩

/-- A tag lies between its bracket and its end. -/
theorem inOrder_tagNode {offset : Nat} {t : Text} {kind : Kind} (h : kind ≠ .element) :
    InOrder offset (offset + tagLength offset t) [tagNode offset t kind] :=
  inOrder_branch h (tagNode_inside offset t).1

/-- What cannot be read lies where it stands. -/
theorem inOrder_unreadable (offset : Nat) (t : Text) :
    (unreadable offset t).1.Laid offset (offset + (unreadable offset t).2) :=
  inOrder_broken nofun (Nat.le_refl _) (Nat.le_add_right _ _) (Nat.le_refl _)

/-- The piece of a start tag lies where it was read. -/
theorem startTag_laid (offset : Nat) (t : Text) :
    (startTag offset t).1.Laid offset (offset + (startTag offset t).2) := by
  have hunreadable := inOrder_unreadable offset ('<' :: t)
  have htag : InOrder offset (offset + tagLength offset t) [tagNode offset t .startTag] :=
    inOrder_tagNode nofun
  rw [startTag_eq]
  split
  · exact hunreadable
  cases hending : (bodyOf offset t).ending with
  | broken => exact htag
  | cut place =>
      cases rawKind? (TagName.ofText (tagLabel t)) with
      | none =>
          obtain ⟨hinside, hle⟩ := (tagNode_inside offset t).2 place hending
          exact ⟨Nat.le_refl _, Nat.le_refl _, hinside, hle⟩
      | some r => exact hunreadable
  | selfClosed =>
      cases rawKind? (TagName.ofText (tagLabel t)) with
      | none =>
          have htag : InOrder offset (offset + tagLength offset t)
              [tagNode offset t .selfClosingTag] := inOrder_tagNode nofun
          exact htag.element (.inr rfl) nofun
      | some r => exact hunreadable
  | opened =>
      cases hraw : rawKind? (TagName.ofText (tagLabel t)) with
      | none => exact htag
      | some r =>
          obtain ⟨word, kind⟩ := r
          dsimp only
          cases helement : rawElement? kind word (tagNode offset t .startTag)
              (t.drop (tagLength offset t - 1)) with
          | none => exact hunreadable
          | some r =>
              have hkind : kind ≠ .element := by
                rcases kind_of_rawKind? hraw with rfl | rfl
                · nofun
                · nofun
              have helement := inOrder_rawElement? hkind htag helement
              exact helement.mono (Nat.le_refl _) (Nat.le_of_eq (Nat.add_assoc ..))

/-- What begins with a bracket lies where it was read. -/
theorem bracketPiece_laid (offset : Nat) (t : Text) :
    (bracketPiece offset t).1.Laid offset (offset + (bracketPiece offset t).2) := by
  have hunreadable := inOrder_unreadable offset ('<' :: t)
  unfold bracketPiece
  split
  · cases doctypeLength? (t.drop 1) with
    | none => exact hunreadable
    | some n => exact inOrder_leaf nofun (Nat.le_refl _) (by omega) (Nat.le_refl _)
  · split
    · cases hend : endTag? (offset + 2) (t.drop 1) with
      | none => exact hunreadable
      | some r =>
          obtain ⟨name, tight, label, n⟩ := r
          refine ⟨Nat.le_refl _, (inOrder_endTag? hend).mono (Nat.le_add_right _ _) ?_, Nat.le_refl _⟩
          omega
    · exact startTag_laid offset t

/-- Every piece lies where it was read, whatever it begins with. -/
theorem nextPiece_laid (offset : Nat) (c : CodePoint) (cs : Text) :
    (nextPiece offset c cs).1.Laid offset (offset + (nextPiece offset c cs).2) := by
  have hbroken : (brokenText offset cs).1.Laid offset (offset + (brokenText offset cs).2) :=
    inOrder_broken (by decide) (Nat.le_refl _) (Nat.le_add_right _ _) (Nat.le_refl _)
  unfold nextPiece
  split
  · next gap n hlead =>
      exact inOrder_leaf (by decide) (by omega) (by omega) (by omega)
  · split
    · exact bracketPiece_laid offset cs
    · split
      · cases entityLength? cs with
        | none => exact hbroken
        | some n => exact inOrder_leaf (by decide) (Nat.le_refl _) (by omega) (Nat.le_refl _)
      · split
        · refine inOrder_leaf (by decide) (Nat.le_refl _) (Nat.le_add_right _ _) ?_
          exact Nat.add_le_add_left (trimmedLength_le _) offset
        · exact hbroken

/-- The pieces of a text lie one behind the other. -/
theorem pieces_laid (offset : Nat) (t : Text) :
    PiecesLaid offset (offset + t.length) (pieces offset t) := by
  induction offset, t using pieces.induct with
  | case1 offset =>
      rw [pieces]
      exact Nat.le_refl offset
  | case2 offset c cs hspace ih =>
      rw [pieces, if_pos hspace, List.length_cons, Nat.add_comm cs.length, ← Nat.add_assoc]
      exact ih.mono (Nat.le_add_right _ _)
  | case3 offset c cs hspace node n hnext =>
      have hlaid := nextPiece_laid offset c cs
      have hle := (nextPiece_sound offset c cs).1
      rw [hnext] at hlaid hle
      rw [pieces, if_neg hspace, hnext]
      exact ⟨offset + n, hlaid, Nat.add_le_add_left hle offset⟩
  | case4 offset c cs hspace piece n hfinal hnext ih =>
      have hlaid := nextPiece_laid offset c cs
      have hle := (nextPiece_sound offset c cs).1
      rw [hnext] at hlaid hle
      dsimp only at hlaid hle
      rw [pieces_of_nextPiece hspace hnext hfinal]
      rw [List.length_drop, show offset + 1 + (n - 1) + (cs.length - (n - 1))
        = offset + (c :: cs).length by rw [List.length_cons]; omega] at ih
      exact ⟨offset + n, hlaid, ih.mono (by omega)⟩

-- ============================================================== stack

namespace Nest

/-- The nodes of a stack from left to right: what is finished, then the
tags and the children of the open elements, the outermost first. -/
def line (s : Nest) : List Node :=
  s.finished.reverse ++ s.frames.reverse.flatMap fun f => f.tag :: f.children.reverse

theorem line_cons (f : Frame) (fs : List Frame) (finished : List Node) :
    line ⟨f :: fs, finished⟩ = line ⟨fs, finished⟩ ++ f.tag :: f.children.reverse := by
  simp [line]

/-- What is added stands last. -/
theorem line_add (n : Node) (s : Nest) : (s.add n).line = s.line ++ [n] := by
  obtain ⟨frames, finished⟩ := s
  cases frames with
  | nil => simp [line, add]
  | cons f fs => simp [line, add]

/-- A stack whose nodes stand in order up to a place. -/
structure Laid (place : Nat) (s : Nest) : Prop where
  line : InOrder 0 place s.line
  tags : ∀ f ∈ s.frames, f.tag.kind = .startTag
  ended : ∀ n ∈ s.line, n.kind ≠ .endTag

variable {place stop : Nat} {s : Nest}

theorem Laid.mono (h : s.Laid place) (hle : place ≤ stop) : s.Laid stop :=
  ⟨h.line.mono (Nat.le_refl 0) hle, h.tags, h.ended⟩

/-- A node behind the stack can be added. -/
theorem Laid.add {n : Node} (h : s.Laid place) (hn : InOrder place stop [n])
    (hkind : n.kind ≠ .endTag) : (s.add n).Laid stop where
  line := by
    rw [line_add]
    exact h.line.append hn
  tags := by
    obtain ⟨frames, finished⟩ := s
    cases frames with
    | nil => exact h.tags
    | cons f fs => exact List.forall_mem_cons.2 (List.forall_mem_cons.1 h.tags)
  ended := by
    rw [line_add]
    exact List.forall_mem_append.2 ⟨h.ended, List.forall_mem_singleton.2 hkind⟩

/-- The innermost element can be closed with nodes behind the stack. -/
theorem Laid.close {last : List Node} (h : s.Laid place) (hlast : InOrder place stop last)
    (hend : ∀ c ∈ last.dropLast, c.kind ≠ .endTag) : (s.close stop last).Laid stop := by
  obtain ⟨frames, finished⟩ := s
  cases frames with
  | nil => exact h.mono hlast.le
  | cons f fs =>
      obtain ⟨hline, htags, hended⟩ := h
      rw [line_cons] at hline hended
      rw [List.forall_mem_append] at hended
      obtain ⟨hbefore, hbehind⟩ := hline.split
      have hrest : Laid f.tag.start ⟨fs, finished⟩ :=
        ⟨hbefore, (List.forall_mem_cons.1 htags).2, hended.1⟩
      -- of all in the element only the last nodes can be end tags
      have hends : ∀ c ∈ ((f.tag :: f.children.reverse) ++ last).dropLast, c.kind ≠ .endTag := by
        intro c hc
        by_cases hnil : last = []
        · rw [hnil, List.append_nil] at hc
          exact hended.2 c (List.dropLast_subset _ hc)
        · rw [List.dropLast_append_of_ne_nil hnil] at hc
          rcases List.mem_append.1 hc with hc | hc
          · exact hended.2 c hc
          · exact hend c hc
      have htag : f.tag.kind = .startTag := htags f List.mem_cons_self
      -- the element is added to what stood before its tag
      exact hrest.add ((hbehind.append hlast).element (.inl htag) hends) nofun

/-- Settling keeps the nodes of a stack in order. -/
theorem Laid.settle {ends : Ends} (h : s.Laid place) (hle : place ≤ stop) :
    (s.settle ends stop).Laid stop :=
  settle_induction (h.mono hle) fun _ hs => hs.close (inOrder_nil (Nat.le_refl stop)) nofun

/-- Pieces in order keep a stack in order. -/
theorem Laid.step {limit : Nat} {p : Piece} (h : s.Laid place) (hp : p.Laid place stop)
    (hsound : p.Sound limit) : (s.step p).Laid stop := by
  cases p with
  | plain node => exact h.add hp hsound.2
  | opening name tight tag =>
      obtain ⟨hstart, htag⟩ := InOrder.self hp
      -- what settles ends where the tag begins, so the tag comes behind it
      have hs : (s.settle (beforeOpening name tight) tag.start).Laid tag.start := h.settle hstart
      have hkind : tag.kind ≠ .endTag := by
        rw [show tag.kind = .startTag from hsound.2]
        nofun
      have hline : (s.step (.opening name tight tag)).line
          = (s.settle (beforeOpening name tight) tag.start).line ++ [tag] := line_cons ..
      refine ⟨?_, List.forall_mem_cons.2 ⟨hsound.2, hs.tags⟩, ?_⟩
      · rw [hline]
        exact hs.line.append htag
      · rw [hline]
        exact List.forall_mem_append.2 ⟨hs.ended, List.forall_mem_singleton.2 hkind⟩
  | complete name tight element =>
      obtain ⟨hstart, helement⟩ := InOrder.self hp
      refine (h.settle hstart).add helement ?_
      rw [show element.kind = .element from hsound.2]
      nofun
  | raw name tight element =>
      obtain ⟨hstart, helement⟩ := InOrder.self hp
      have hs : (s.settle (beforeOpening name tight) element.start).Laid element.start :=
        h.settle hstart
      unfold Nest.step
      dsimp only
      split
      · exact hs.add helement hsound.2
      · -- script and style without a kept name become a malformed place of the same extent
        obtain ⟨-, hforward, hstop⟩ := hp.inside element (List.mem_singleton.2 rfl)
        exact hs.add (inOrder_broken nofun (Nat.le_refl _) hforward hstop) nofun
  | closing name tight start stop' label =>
      obtain ⟨hstart, hlabel, hstop⟩ := hp
      have hs : (s.settle (beforeClosing name tight) start).Laid start := h.settle hstart
      have htag : ∀ kind, kind ≠ .element →
          InOrder start stop' [.branch kind start stop' [label]] := fun kind hkind =>
        inOrder_branch hkind hlabel
      unfold Nest.step
      dsimp only
      split
      · -- no element is open
        exact hs.add (inOrder_broken nofun (Nat.le_refl _) hlabel.le hstop) nofun
      · split
        · -- the tag ends the innermost element
          exact (hs.close (htag .endTag nofun) nofun).mono hstop
        · -- no open element has its name
          exact (hs.add (htag .strayEndTag nofun) nofun).mono hstop
  | unfinished name tight missed tag =>
      obtain ⟨hstart, hstop, hinside, hle⟩ := hp
      have hkind : tag.kind = .startTag := hsound.2.2
      have hs : ((s.settle (beforeOpening name tight) tag.start).closeAll tag.start).Laid tag.start :=
        (h.settle hstart).settle (Nat.le_refl _)
      -- the missed end is added behind the attributes, inside the tag
      have hmissed : ∀ token, InOrder tag.start tag.stop
          [.branch tag.kind tag.start tag.stop
            (tag.children ++ [.broken (.absent token) missed missed])] := by
        intro token
        refine inOrder_branch (by rw [hkind]; nofun) (hinside.append ?_)
        exact inOrder_broken nofun (Nat.le_refl _) (Nat.le_refl _) hle
      refine (hs.add (hmissed _) ?_).mono hstop
      show tag.kind ≠ .endTag
      rw [hkind]
      nofun
  | final node =>
      obtain ⟨hstart, hnode⟩ := InOrder.self hp
      exact (h.settle hstart).add hnode hsound.2.2

/-- Pieces one behind the other keep the stack in order, by induction over
them. -/
theorem Laid.foldl {limit : Nat} {ps : List Piece} (h : s.Laid place)
    (hps : PiecesLaid place stop ps) (hsound : ∀ p ∈ ps, p.Sound limit) :
    (ps.foldl Nest.step s).Laid stop := by
  induction ps generalizing s place with
  | nil => exact h.mono hps
  | cons p ps ih =>
      obtain ⟨m, hp, hps⟩ := hps
      rw [List.forall_mem_cons] at hsound
      exact ih (h.step hp hsound.1) hps hsound.2

-- ============================================================ the end

/-- Trees in order end where the last of them does. -/
theorem inOrder_last {a b : Nat} {ns : List Node} {n : Node} (h : InOrder a b (ns ++ [n])) :
    n.stop ≤ b ∧ InOrder a n.stop (ns ++ [n]) := by
  obtain ⟨hbefore, hlast⟩ := h.split
  obtain ⟨-, hforward, hstop⟩ := hlast.inside n List.mem_cons_self
  refine ⟨hstop, hbefore.append ⟨hforward, ?_, List.pairwise_singleton _ n, hlast.laid⟩⟩
  exact List.forall_mem_singleton.2 ⟨Nat.le_refl _, hforward, Nat.le_refl _⟩

/-- What is left open ends with what stands last in it. -/
theorem inOrder_lastStop {a b : Nat} {f : Frame} (h : InOrder a b (f.tag :: f.children.reverse)) :
    lastStop f ≤ b ∧ InOrder a (lastStop f) (f.tag :: f.children.reverse) := by
  unfold lastStop
  cases hchildren : f.children with
  | nil =>
      rw [hchildren] at h
      have h : InOrder a b ([] ++ [f.tag]) := h
      exact inOrder_last h
  | cons n ns =>
      rw [hchildren, List.reverse_cons, ← List.cons_append] at h
      rw [List.reverse_cons, ← List.cons_append]
      exact inOrder_last h

theorem line_of_closed (finished : List Node) : line ⟨[], finished⟩ = finished.reverse :=
  List.append_nil _

/-- The nodes of a text are in order, and none is an end tag. -/
theorem Laid.finish {t : Text} (h : s.Laid place) (hle : place ≤ t.length) :
    InOrder 0 t.length (s.finish t) ∧ ∀ n ∈ s.finish t, n.kind ≠ .endTag := by
  have hs : (s.settle beforeEnd t.length).Laid t.length := h.settle hle
  unfold Nest.finish
  dsimp only
  generalize s.settle beforeEnd t.length = s at hs
  obtain ⟨frames, finished⟩ := s
  match frames with
  -- nothing is open
  | [] =>
      have hline := hs.line
      have hended := hs.ended
      rw [line_of_closed] at hline hended
      exact ⟨hline, hended⟩
  -- one element is open: its tag becomes malformed, or the element ends with what is in it
  | [f] =>
      have hline := hs.line
      have hended := hs.ended
      rw [line_cons, List.forall_mem_append, line_of_closed] at hended
      rw [line_cons] at hline
      obtain ⟨hbefore, hbehind⟩ := hline.split
      rw [line_of_closed] at hbefore
      dsimp only
      split
      · obtain ⟨-, hforward, -⟩ := hbehind.inside f.tag List.mem_cons_self
        have hfault : InOrder f.tag.start f.tag.stop [.broken .fault f.tag.start f.tag.stop] :=
          inOrder_broken nofun (Nat.le_refl _) hforward (Nat.le_refl _)
        rw [List.reverse_append, List.reverse_cons, List.append_assoc]
        refine ⟨hbefore.append (hfault.append hbehind.rest), ?_⟩
        rw [List.forall_mem_append, List.singleton_append, List.forall_mem_cons]
        exact ⟨hended.1, nofun, (List.forall_mem_cons.1 hended.2).2⟩
      · obtain ⟨hstop, hinside⟩ := inOrder_lastStop hbehind
        have hopen : InOrder f.tag.start (lastStop f) [leftOpen f] := by
          refine hinside.element (.inl (hs.tags f List.mem_cons_self)) fun c hc => ?_
          exact hended.2 c (List.dropLast_subset _ hc)
        rw [List.reverse_cons, List.forall_mem_append]
        exact ⟨hbefore.append (hopen.mono (Nat.le_refl _) hstop), hended.1,
          List.forall_mem_singleton.2 nofun⟩
  -- several elements are open: all of them are closed where the text ends
  | f :: g :: fs =>
      have hclosed : (closeAll t.length ⟨f :: g :: fs, finished⟩).Laid t.length :=
        hs.settle (Nat.le_refl _)
      have hframes := frames_closeAll t.length ⟨f :: g :: fs, finished⟩
      dsimp only
      generalize closeAll t.length ⟨f :: g :: fs, finished⟩ = s at hclosed hframes
      obtain ⟨_, finished⟩ := s
      cases hframes
      obtain ⟨hline, -, hended⟩ := hclosed.add (n := .broken .fault t.length t.length)
        (inOrder_broken nofun (Nat.le_refl _) (Nat.le_refl _) (Nat.le_refl _)) nofun
      rw [line_add, line_of_closed, ← List.reverse_cons] at hline hended
      exact ⟨hline, hended⟩

end Nest

/-- The builder ends with its nodes in order. -/
theorem nest_laid (t : Text) : (nest t).Laid t.length := by
  have hpieces := pieces_laid (markupStart t) (t.drop (markupStart t))
  rw [List.length_drop, Nat.add_sub_cancel' (markupStart_le t)] at hpieces
  have hempty : Nest.Laid 0 ⟨[], []⟩ := ⟨inOrder_nil (Nat.le_refl 0), nofun, nofun⟩
  exact hempty.foldl (hpieces.mono (Nat.zero_le _)) (pieces_sound_nest t)

/-- The tree of a text lies inside the text, in order. -/
theorem inOrder_parse (t : Text) : InOrder 0 t.length [parse t] :=
  inOrder_branch nofun ((nest_laid t).finish (Nat.le_refl _)).1

/-- The tree of every text is in order. -/
theorem laid_parse (t : Text) : ∀ n ∈ walk [parse t], n.Laid := (inOrder_parse t).laid

/-- A walk over trees in order goes through the text from left to right. -/
theorem InOrder.pairwise_start (h : InOrder a b ns) :
    (∀ n ∈ walk ns, a ≤ n.start) ∧ (walk ns).Pairwise fun m n => m.start ≤ n.start := by
  induction ns using Node.walk.induct generalizing a with
  | case1 =>
      rw [walk]
      exact ⟨List.forall_mem_nil _, .nil⟩
  | case2 n ns ih =>
      obtain ⟨hstart, hforward, -⟩ := h.inside n List.mem_cons_self
      have hlaid := h.laid n (Node.mem_walk_of_mem List.mem_cons_self)
      have hbelow : ∀ c ∈ walk n.children, c.Laid := fun c hc =>
        h.laid c (Node.mem_walk_children (Node.mem_walk_of_mem List.mem_cons_self) hc)
      have hchildren : InOrder n.start n.stop n.children :=
        ⟨hforward, hlaid.inside, hlaid.apart, hbelow⟩
      obtain ⟨hfrom, hpairwise⟩ := ih (hchildren.append h.rest)
      rw [walk, List.forall_mem_cons, List.pairwise_cons]
      exact ⟨⟨hstart, fun m hm => Nat.le_trans hstart (hfrom m hm)⟩, hfrom, hpairwise⟩

/-- The walk over the tree of a text goes through it from left to right. -/
theorem pairwise_start_parse (t : Text) :
    (walk [parse t]).Pairwise fun m n => m.start ≤ n.start := (inOrder_parse t).pairwise_start.2

/-- No end tag stands outside of all elements. -/
theorem not_endTag_parse (t : Text) : ∀ n ∈ (parse t).children, n.kind ≠ .endTag :=
  ((nest_laid t).finish (Nat.le_refl _)).2

end KeyHarvest.Markup
