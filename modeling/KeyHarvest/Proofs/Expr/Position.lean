/-
Where a fault is. The position of a refusal is that of a code point of the
text which is no blank, or the end of the text (`lands_of_parseAt`). Faults
of the lexer are at the piece that begins no token, faults of the grammar
at a token or at the end, and what a backtick literal is refused for is a
fault of its body.

# Substitutions

A text is refused in a substitution when its reader comes to a backtick
literal where an operand is due, and then to the code of the substitution,
past others that can be read (`RefusedIn`). The refusal is then that of the
code, and so its position is between the braces or at the closing one; a
substitution that is not closed is refused at its dollar sign
(`covers_of_refusedIn`). Every other refusal is at a token of the text
itself (`refusedIn_or_isOwn`).
-/
import KeyHarvest.Proofs.Expr.Offset
import KeyHarvest.Proofs.Expr.Oversized
import KeyHarvest.Proofs.Expr.Scan
import KeyHarvest.Proofs.Markup.Search

namespace KeyHarvest

-- ============================================================ grammar

namespace Grammar

variable {stop : Nat} {ts us after : List Item} {e final : ExprError}

/-- The positions of tokens, and the end. -/
def Located (stop : Nat) (ts : List Item) (p : Nat) : Prop := p = stop ∨ ∃ t ∈ ts, p = t.position

/-- The position of some of the items is a place among them. -/
theorem located_position (h : us ⊆ ts) : Located stop ts (position stop us) := by
  cases us with
  | nil => exact .inl rfl
  | cons u us => exact .inr ⟨u, h List.mem_cons_self, rfl⟩

/-- The beginning of a list that is read like the whole of it: all literals
in it can be read, and what follows it refuses to be an operand. -/
structure Frontier (stop : Nat) (ts us after : List Item) (final : ExprError) : Prop where
  eq : ts = us ++ after
  readable : Readable us
  lead : lead after = none
  final : primary stop after = .error final

/-- How a list and its beginning are refused: where the beginning ends too
early, the list is refused with what follows, and otherwise with a fault at
one of its tokens. -/
def FrontierError (stop : Nat) (all : List Item) (final e f : ExprError) : Prop :=
  (e = final ∧ f = .malformed .unexpectedEnd stop)
    ∨ ((∃ fault p, e = .malformed fault p ∧ Located stop all p)
      ∧ ∃ fault q, fault ≠ .unexpectedEnd ∧ f = .malformed fault q)

/-- Items in front of what stands behind them are read alike up to there. -/
theorem frontierSimulation (stop : Nat) (all after : List Item) (final : ExprError) :
    Simulation stop stop (FrontierError stop all final)
      (fun ts us => Frontier stop ts us after final ∧ ts ⊆ all) where
  front := by
    intro ts us h
    obtain ⟨h, hall⟩ := h
    cases us with
    | nil =>
        obtain rfl : ts = after := h.eq
        refine .ended h.lead rfl h.final ?_ (.inl ⟨rfl, rfl⟩)
        rw [primary]
        rfl
    | cons u us =>
        obtain ⟨rfl, hreadable, hlead, hfinal⟩ := h
        refine .step (kin_self (hreadable u List.mem_cons_self)) ⟨⟨rfl, ?_, hlead, hfinal⟩, ?_⟩
        · exact fun t ht => hreadable t (List.mem_cons_of_mem u ht)
        · exact fun t ht => hall (List.mem_cons_of_mem u ht)
  fault := by
    intro ts us fault h hf
    exact .inr ⟨⟨fault, _, rfl, located_position h.2⟩, fault, _, hf.ne_end, rfl⟩

/-- The frontier of a list is its first literal that cannot be read, or its
end. -/
theorem exists_frontier (stop : Nat) (ts : List Item) :
    ∃ us after final, Frontier stop ts us after final
      ∧ (final = .malformed .unexpectedEnd stop
        ∨ ∃ b p rest, after = ⟨.template b, p⟩ :: rest ∧ b.outcome = .error final) := by
  cases hf : ts.findSome? refusalOf? with
  | none =>
      refine ⟨ts, [], _, ⟨(List.append_nil ts).symm, List.findSome?_eq_none_iff.1 hf, rfl, ?_⟩,
        .inl rfl⟩
      rw [primary]
      rfl
  | some e =>
      obtain ⟨before, t, rest, rfl, ht, hr⟩ := List.findSome?_eq_some_iff.1 hf
      obtain ⟨b, p, rfl, hb⟩ := exists_of_refusalOf? ht
      refine ⟨before, _, e, ⟨rfl, hr, rfl, ?_⟩, .inr ⟨b, p, rest, rfl, hb⟩⟩
      rw [primary]
      simp only [hb]
      rfl

/-- A whole list is refused with the refusal of a literal where an operand
is due, or at one of its tokens, or at its end. -/
theorem blamed_or_located (h : whole stop ts = .error e) :
    (∃ before b p after, ts = before ++ ⟨.template b, p⟩ :: after ∧ Asks stop before
        ∧ b.outcome = .error e)
      ∨ ∃ fault p, e = .malformed fault p ∧ Located stop ts p := by
  obtain ⟨us, after, final, hfrontier, hfinal⟩ := exists_frontier stop ts
  have halike := alike_read (frontierSimulation stop ts after final) .pipe
    ⟨hfrontier, List.Subset.refl ts⟩
  cases ts with
  | nil => cases h
  | cons t r =>
      rw [whole] at h
      change Alike _ _ (pipe stop (t :: r)) (pipe stop us) at halike
      cases hp : pipe stop (t :: r) with
      | ok x =>
          rw [hp] at h halike
          obtain ⟨value, rest, hshorter⟩ := x
          cases hq : pipe stop us with
          | error f => rw [hq] at halike; exact halike.elim
          | ok y =>
              rw [hq] at halike
              cases rest with
              | nil => cases h
              | cons u v =>
                  cases h
                  exact .inr ⟨_, _, rfl, located_position halike.2.2⟩
      | error f =>
          rw [hp] at h halike
          cases h
          cases hq : pipe stop us with
          | ok y => rw [hq] at halike; exact halike.elim
          | error g =>
              rw [hq] at halike
              rcases halike with ⟨rfl, rfl⟩ | ⟨hlocated, -⟩
              · rcases hfinal with rfl | ⟨b, p, rest, rfl, hb⟩
                · exact .inr ⟨_, _, rfl, .inl rfl⟩
                · exact .inl ⟨us, b, p, rest, hfrontier.eq, ⟨hfrontier.readable, hq⟩, hb⟩
              · exact .inr hlocated

/-- Where an operand is due, a literal that cannot be read is what the list
is refused for. -/
theorem whole_of_asks {b : Backtick} {p : Nat} (hasks : Asks stop us) (hb : b.outcome = .error e) :
    whole stop (us ++ ⟨.template b, p⟩ :: after) = .error e := by
  have halike := alike_read (cutSimulation stop hb p after) .pipe ⟨rfl, hasks.1⟩
  simp only [read, hasks.2] at halike
  cases hp : pipe stop (us ++ ⟨.template b, p⟩ :: after) with
  | ok x => rw [hp] at halike; exact halike.elim
  | error f =>
      rw [hp] at halike
      rcases halike with ⟨rfl, -⟩ | ⟨-, fault, q, hfault, hend⟩
      · cases hlist : us ++ ⟨.template b, p⟩ :: after with
        | nil => simp at hlist
        | cons t r =>
            rw [hlist] at hp
            rw [whole, hp]
            rfl
      · cases hend
        exact absurd rfl hfault

end Grammar

-- ============================================================= bodies

namespace BacktickBody

/-- A substitution from its dollar sign to its closing brace. -/
def written (code : Text) : Text :=
  CodePoint.ofChar '$' :: CodePoint.ofChar '{' :: (code ++ [CodePoint.ofChar '}'])

/-- The code of a substitution stands at a position of a text, between its
braces. -/
def Holds (t : Text) (p : Nat) (code : Text) : Prop :=
  ∃ before after, t = before ++ written code ++ after ∧ p = before.length + 2

/-- The opening of a substitution stands at a position of a text. -/
def Opens (t : Text) (p : Nat) : Prop :=
  ∃ before after, t = before ++ CodePoint.ofChar '$' :: CodePoint.ofChar '{' :: after
    ∧ p = before.length

theorem Holds.append {t : Text} {p : Nat} {code : Text} (h : Holds t p code) (pre post : Text) :
    Holds (pre ++ t ++ post) (pre.length + p) code := by
  obtain ⟨before, after, rfl, rfl⟩ := h
  exact ⟨pre ++ before, after ++ post, by simp, by simp; omega⟩

/-- Code between its braces is followed by the closing one. -/
theorem Holds.exists_eq {t : Text} {p : Nat} {code : Text} (h : Holds t p code) :
    ∃ pre post, t = pre ++ code ++ CodePoint.ofChar '}' :: post ∧ p = pre.length := by
  obtain ⟨before, after, rfl, rfl⟩ := h
  exact ⟨before ++ [CodePoint.ofChar '$', CodePoint.ofChar '{'], after, by simp [written], by simp⟩

theorem Opens.append {t : Text} {p : Nat} (h : Opens t p) (pre post : Text) :
    Opens (pre ++ t ++ post) (pre.length + p) := by
  obtain ⟨before, after, rfl, rfl⟩ := h
  exact ⟨pre ++ before, after ++ post, by simp, by simp⟩

/-- The search for a closing brace stops at a brace. -/
theorem braceStep_eq_stop {depth : Nat} {t : Text} (h : braceStep depth t = .stop) :
    ∃ cs, t = CodePoint.ofChar '}' :: cs := by
  cases t with
  | nil => cases h
  | cons c cs =>
      unfold braceStep at h
      dsimp only at h
      split at h
      · cases h
      · split at h
        · next hc => exact ⟨cs, by rw [hc]⟩
        · cases h

/-- Code ends at a closing brace. -/
theorem exists_of_codeLength? {t : Text} {n : Nat} (h : codeLength? t = some n) :
    ∃ code rest, t = code ++ CodePoint.ofChar '}' :: rest ∧ code.length = n := by
  obtain ⟨depth, hstop⟩ := Quoted.exists_stop_of_find h
  obtain ⟨rest, hrest⟩ := braceStep_eq_stop hstop
  refine ⟨t.take n, rest, by rw [← hrest, List.take_append_drop], ?_⟩
  have hlt : n < t.length := by
    have hlength := congrArg List.length hrest
    rw [List.length_drop, List.length_cons] at hlength
    omega
  exact List.length_take_of_le (Nat.le_of_lt hlt)

/-- Text in front changes neither the code nor its place. -/
theorem exists_of_mem_push {raw : Text} {b : BacktickBody} {x : Substitution}
    (h : x ∈ (b.push raw).parts) : ∃ y ∈ b.parts, y.code = x.code ∧ y.offset = x.offset := by
  unfold push at h
  split at h
  · cases h
  · next y ys hparts =>
      rcases List.mem_cons.1 h with rfl | h
      · exact ⟨y, by simp [hparts], rfl, rfl⟩
      · exact ⟨x, by simp [hparts, h], rfl, rfl⟩

/-- What is put in front of a body does not change how it ends. -/
theorem last_push {raw : Text} {b : BacktickBody} {p : Nat} :
    (b.push raw).last = .error p ↔ b.last = .error p := by
  unfold push
  split
  · cases b.last <;> simp [Except.map]
  · rfl

/-- A substitution in front of a text. -/
theorem exists_written {c : CodePoint} {cs : Text} {n : Nat}
    (hopen : c = '$' ∧ Text.starts '{' cs = true) (h : codeLength? (cs.drop 1) = some n) :
    ∃ code rest, c :: cs = written code ++ rest ∧ (cs.drop 1).take n = code
      ∧ cs.drop (n + 2) = rest ∧ (written code).length = n + 3 := by
  obtain ⟨rfl, hbrace⟩ := hopen
  cases cs with
  | nil => cases hbrace
  | cons d ds =>
      obtain rfl : d = '{' := by simpa [Text.starts] using hbrace
      obtain ⟨code, rest, hds, rfl⟩ := exists_of_codeLength? h
      obtain rfl : ds = code ++ CodePoint.ofChar '}' :: rest := hds
      refine ⟨code, rest, by simp [written], List.take_left, ?_, by simp [written]⟩
      rw [List.drop_succ_cons, List.drop_length_add_append]
      rfl

/-- The substitutions of a body stand in it where they are said to. -/
theorem holds_of_mem_split {start : Nat} {t : Text} {x : Substitution}
    (h : x ∈ (split start t).parts) : ∃ p, x.offset = start + p ∧ Holds t p x.code := by
  fun_induction split start t generalizing x with
  | case1 => cases h
  | case2 start cs ih =>
      obtain ⟨y, hy, hcode, hoffset⟩ := exists_of_mem_push h
      cases cs with
      | nil =>
          rw [List.drop_nil, split] at hy
          cases hy
      | cons d ds =>
          obtain ⟨p, hp, hholds⟩ := ih hy
          have hlonger := hholds.append [CodePoint.ofChar '\\', d] []
          rw [List.append_nil, hcode] at hlonger
          exact ⟨_, by rw [← hoffset, hp]; simp; omega, hlonger⟩
  | case3 => cases h
  | case4 start c cs _ hopen n hn ih =>
      obtain ⟨code, rest, htext, htake, hdrop, hlength⟩ := exists_written hopen hn
      rw [htext]
      rcases List.mem_cons.1 h with rfl | h
      · exact ⟨2, rfl, [], rest, by rw [htake]; rfl, rfl⟩
      · obtain ⟨p, hp, hholds⟩ := ih h
        rw [hdrop] at hholds
        have hlonger := hholds.append (written code) []
        rw [List.append_nil] at hlonger
        exact ⟨_, by rw [hp, hlength]; omega, hlonger⟩
  | case5 start c cs _ _ ih =>
      obtain ⟨y, hy, hcode, hoffset⟩ := exists_of_mem_push h
      obtain ⟨p, hp, hholds⟩ := ih hy
      have hlonger := hholds.append [c] []
      rw [List.append_nil, hcode] at hlonger
      exact ⟨_, by rw [← hoffset, hp]; simp; omega, hlonger⟩

/-- A substitution that is not closed stands in the body where it is said
to. -/
theorem opens_of_last_split {start place : Nat} {t : Text}
    (h : (split start t).last = .error place) : ∃ p, place = start + p ∧ Opens t p := by
  fun_induction split start t with
  | case1 => cases h
  | case2 start cs ih =>
      rw [last_push] at h
      cases cs with
      | nil =>
          rw [List.drop_nil, split] at h
          cases h
      | cons d ds =>
          obtain ⟨p, rfl, hopens⟩ := ih h
          have hlonger := hopens.append [CodePoint.ofChar '\\', d] []
          rw [List.append_nil] at hlonger
          exact ⟨_, by simp; omega, hlonger⟩
  | case3 start c cs _ hopen _ =>
      cases h
      obtain ⟨rfl, hbrace⟩ := hopen
      cases cs with
      | nil => cases hbrace
      | cons d ds =>
          obtain rfl : d = '{' := by simpa [Text.starts] using hbrace
          exact ⟨0, rfl, [], ds, rfl, rfl⟩
  | case4 start c cs _ hopen n hn ih =>
      obtain ⟨code, rest, htext, -, hdrop, hlength⟩ := exists_written hopen hn
      obtain ⟨p, rfl, hopens⟩ := ih h
      rw [hdrop] at hopens
      have hlonger := hopens.append (written code) []
      rw [List.append_nil] at hlonger
      rw [htext]
      exact ⟨_, by rw [hlength]; omega, hlonger⟩
  | case5 start c cs _ _ ih =>
      rw [last_push] at h
      obtain ⟨p, rfl, hopens⟩ := ih h
      have hlonger := hopens.append [c] []
      rw [List.append_nil] at hlonger
      exact ⟨_, by simp; omega, hlonger⟩

end BacktickBody

-- ============================================================= places

/-- A position is that of the end of a text, or of a code point in it that
is no blank. -/
def Lands (t : Text) (p : Nat) : Prop := p = t.length ∨ ∃ c, t[p]? = some c ∧ c.isBlank = false

/-- Where a code point stands that is no blank, a position may land. -/
theorem lands_of_cons (pre : Text) {c : CodePoint} (hc : c.isBlank = false) (cs : Text) :
    Lands (pre ++ c :: cs) pre.length := by
  refine .inr ⟨c, ?_, hc⟩
  rw [List.getElem?_append_right (Nat.le_refl _), Nat.sub_self]
  rfl

namespace Lands

theorem le_length {t : Text} {p : Nat} (h : Lands t p) : p ≤ t.length := by
  rcases h with rfl | ⟨c, hc, -⟩
  · exact Nat.le_refl _
  · exact Nat.le_of_lt (List.getElem?_eq_some_iff.1 hc).1

/-- A position in code is one in the text around it, since a brace follows
the code. -/
theorem of_holds {t code : Text} {p q : Nat} (h : Lands code q)
    (hholds : BacktickBody.Holds t p code) : Lands t (p + q) := by
  obtain ⟨pre, post, rfl, rfl⟩ := hholds.exists_eq
  rcases h with rfl | ⟨c, hc, hblank⟩
  · have hend := lands_of_cons (pre ++ code) (show (CodePoint.ofChar '}').isBlank = false by decide)
      post
    rwa [List.length_append] at hend
  · refine .inr ⟨c, ?_, hblank⟩
    rw [List.append_assoc, List.getElem?_append_right (Nat.le_add_right _ _),
      Nat.add_sub_cancel_left, List.getElem?_append_left (List.getElem?_eq_some_iff.1 hc).1, hc]

end Lands

/-- A refusal of the lexer is where nothing begins. -/
theorem lands_of_tokenize {t : Text} {fault : ExprFault} {p : Nat}
    (h : tokenize 0 t = .error (.malformed fault p)) : Lands t p := by
  obtain ⟨xs, q, hscan, hend⟩ := (Scan.start (t := t)).exists_end
  rcases hend with rfl | ⟨n, hn⟩ | hstuck
  · rw [hscan.tokenize_eq_ok] at h
    cases h
  · rw [hscan.tokenize_of_overflows hn] at h
    cases h
  · rw [hscan.tokenize_of_stuck hstuck] at h
    cases h
    obtain ⟨c, cs, hdrop, hblank, -⟩ := hstuck
    have hlands := lands_of_cons (t.take p) hblank cs
    rwa [← hdrop, List.take_append_drop, List.length_take_of_le hscan.le_length] at hlands

/-- The tokens of a text have been passed by a scan. -/
theorem exists_scan_of_tokenize {t : Text} {ts : List (Token Text)} (h : tokenize 0 t = .ok ts) :
    ∃ xs, Scan t xs t.length ∧ xs.map Placed.token = ts := by
  obtain ⟨xs, q, hscan, hend⟩ := (Scan.start (t := t)).exists_end
  rcases hend with rfl | ⟨n, hn⟩ | hstuck
  · rw [hscan.tokenize_eq_ok] at h
    exact ⟨xs, hscan, Except.ok.inj h⟩
  · rw [hscan.tokenize_of_overflows hn] at h
    cases h
  · rw [hscan.tokenize_of_stuck hstuck] at h
    cases h

/-- A token stands in the text where it is said to. -/
theorem exists_of_mem_tokenize {start : Nat} {t : Text} {ts : List (Token Text)}
    (hts : tokenize start t = .ok ts) {x : Token Text} (hx : x ∈ ts) :
    ∃ pre raw post, t = pre ++ (raw ++ post) ∧ x.position = start + pre.length
      ∧ x.kind.Begins (raw ++ post) raw := by
  have hmoved := tokenize_add 0 start t
  rw [Nat.zero_add, hts] at hmoved
  cases hfirst : tokenize 0 t with
  | error e => rw [hfirst] at hmoved; cases hmoved
  | ok us =>
      rw [hfirst] at hmoved
      obtain rfl : ts = us.map (Token.move start) := Except.ok.inj hmoved
      obtain ⟨y, hy, rfl⟩ := List.mem_map.1 hx
      obtain ⟨xs, hscan, rfl⟩ := exists_scan_of_tokenize hfirst
      obtain ⟨z, hz, rfl⟩ := List.mem_map.1 hy
      have hbegins := hscan.begins z hz
      obtain ⟨post, hpost⟩ := hbegins.isPrefix
      have hle : z.token.position ≤ t.length := by
        have hlength := hbegins.isPrefix.length_le
        have hpos := hbegins.length_pos
        rw [List.length_drop] at hlength
        omega
      refine ⟨t.take z.token.position, _, post, ?_, ?_, hpost ▸ hbegins⟩
      · rw [hpost, List.take_append_drop]
      · rw [List.length_take_of_le hle, Nat.add_comm]
        rfl

/-- The position of a token lands on it. -/
theorem lands_of_mem_tokenize {t : Text} {ts : List (Token Text)} (hts : tokenize 0 t = .ok ts)
    {x : Token Text} (hx : x ∈ ts) : Lands t x.position := by
  obtain ⟨pre, raw, post, rfl, hpos, hbegins⟩ := exists_of_mem_tokenize hts hx
  obtain ⟨c, cs, rfl, hblank⟩ := hbegins.isTokenText.exists_cons
  rw [hpos, Nat.zero_add]
  exact lands_of_cons pre hblank (cs ++ post)

-- ============================================================ refusals

namespace Expr

/-- The reader of a text comes to a backtick literal, where an operand is
due. -/
def MeetsLiteral (start : Nat) (t : Text) (q : Nat) (body : Text) : Prop :=
  ∃ before after, tokenize start t = .ok (before ++ ⟨.template body, q⟩ :: after)
    ∧ Grammar.Asks (start + t.length) (before.map toItem)

/-- The code of a substitution can be read, in a body that starts at a
position. -/
def IsRead (start : Nat) (x : Substitution) : Prop := ∃ e, parseAt (start + x.offset) x.code = .ok e

/-- The reader of a body comes to a substitution, past others that can be
read. -/
def ComesTo (start : Nat) (body : Text) (x : Substitution) : Prop :=
  Reaches (IsRead start) (· = x) (BacktickBody.split 0 body).parts

/-- A substitution that is come to is one of the body. -/
theorem ComesTo.mem {start : Nat} {body : Text} {x : Substitution} (h : ComesTo start body x) :
    x ∈ (BacktickBody.split 0 body).parts := by
  obtain ⟨before, _, after, hparts, -, rfl⟩ := h
  rw [hparts]
  simp

/-- Why a text is refused: for a piece of it that is no token, at a token or
at its end, for the code of a substitution, or for a substitution that is
not closed. -/
inductive Cause (start : Nat) (t : Text) : ExprError → Prop where
  | piece {e : ExprError} (h : tokenize start t = .error e) : Cause start t e
  | token {ts : List (Token Text)} {fault : ExprFault} {p : Nat}
      (hts : tokenize start t = .ok ts) (hp : p = start + t.length ∨ ∃ x ∈ ts, p = x.position) :
      Cause start t (.malformed fault p)
  | code {q : Nat} {body : Text} {x : Substitution} {e : ExprError}
      (hmeets : MeetsLiteral start t q body) (hcomes : ComesTo (q + 1) body x)
      (he : parseAt (q + 1 + x.offset) x.code = .error e) : Cause start t e
  | unclosed {q place : Nat} {body : Text} (hmeets : MeetsLiteral start t q body)
      (hread : ∀ x ∈ (BacktickBody.split 0 body).parts, IsRead (q + 1) x)
      (hlast : (BacktickBody.split 0 body).last = .error place) :
      Cause start t (.malformed .unclosedSubstitution (q + 1 + place))

/-- The first substitution that is refused is one that is come to. -/
theorem exists_comesTo_iff {start : Nat} {body : Text} {e : ExprError} :
    (∃ x, ComesTo start body x ∧ parseAt (start + x.offset) x.code = .error e)
      ↔ (BacktickBody.split 0 body).parts.mapM (fun x => parseAt (start + x.offset) x.code)
        = .error e := by
  have hmapM : (BacktickBody.split 0 body).parts.mapM
        (fun x => parseAt (start + x.offset) x.code) = .error e
      ↔ Reaches (IsRead start) (fun x => parseAt (start + x.offset) x.code = .error e)
          (BacktickBody.split 0 body).parts := by
    rw [← refusal?_eq_some, refusal?_mapM, findSome?_eq_some_iff_reaches]
    exact reaches_congr (fun x _ => refusal?_eq_none) fun x _ => refusal?_eq_some
  rw [hmapM]
  constructor
  · rintro ⟨x, ⟨before, y, after, hparts, hbefore, rfl⟩, he⟩
    exact ⟨before, y, after, hparts, hbefore, he⟩
  · rintro ⟨before, x, after, hparts, hbefore, he⟩
    exact ⟨x, ⟨before, x, after, hparts, hbefore, rfl⟩, he⟩

/-- A body is refused for the code of a substitution, or for one that is
not closed. -/
theorem readBody_eq_error {start : Nat} {body : Text} {e : ExprError} :
    readBody start body = .error e
      ↔ (∃ x, ComesTo start body x ∧ parseAt (start + x.offset) x.code = .error e)
        ∨ ((∀ x ∈ (BacktickBody.split 0 body).parts, IsRead start x)
          ∧ ∃ place, (BacktickBody.split 0 body).last = .error place
            ∧ e = .malformed .unclosedSubstitution (start + place)) := by
  have hread : (∀ x ∈ (BacktickBody.split 0 body).parts, IsRead start x)
      ↔ ∃ items, (BacktickBody.split 0 body).parts.mapM
          (fun x => parseAt (start + x.offset) x.code) = .ok items := by
    rw [← refusal?_eq_none, refusal?_mapM, List.findSome?_eq_none_iff]
    exact forall₂_congr fun x _ => refusal?_eq_none.symm
  rw [exists_comesTo_iff, hread, readBody]
  cases (BacktickBody.split 0 body).parts.mapM fun x => parseAt (start + x.offset) x.code with
  | error f => simp [bind, Except.bind]
  | ok items =>
      show ofBody start (BacktickBody.split 0 body) items = .error e ↔ _
      rw [ofBody]
      cases (BacktickBody.split 0 body).last with
      | ok last => simp
      | error place => simp [eq_comm]

/-- A text is refused with what a literal is refused for, where an operand
is due. -/
theorem parseAt_of_meetsLiteral {start q : Nat} {t body : Text} {e : ExprError}
    (hmeets : MeetsLiteral start t q body) (he : readBody (q + 1) body = .error e) :
    parseAt start t = .error e := by
  obtain ⟨before, after, hts, hasks⟩ := hmeets
  have hb : (toBacktick q body).outcome = .error e := he
  rw [parseAt_eq, hts]
  show Grammar.whole _ ((before ++ ⟨.template body, q⟩ :: after).map toItem) = _
  rw [List.map_append, List.map_cons]
  exact Grammar.whole_of_asks hasks hb

/-- Every refusal has a cause. -/
theorem cause_of_parseAt {start : Nat} {t : Text} {e : ExprError}
    (h : parseAt start t = .error e) : Cause start t e := by
  rw [parseAt_eq] at h
  cases hts : tokenize start t with
  | error f =>
      rw [hts] at h
      cases h
      exact .piece hts
  | ok ts =>
      rw [hts] at h
      rcases Grammar.blamed_or_located h with
        ⟨_, b, q, _, hitems, hasks, hb⟩ | ⟨fault, p, rfl, hlocated⟩
      · obtain ⟨before, rest, rfl, rfl, hrest⟩ := List.map_eq_append_iff.1 hitems
        obtain ⟨token, after, rfl, htoken, rfl⟩ := List.map_eq_cons_iff.1 hrest
        obtain ⟨body, rfl, rfl⟩ := toItem_eq_template htoken
        have hmeets : MeetsLiteral start t q body := ⟨before, after, hts, hasks⟩
        rcases readBody_eq_error.1 hb with ⟨x, hcomes, he⟩ | ⟨hread, place, hlast, rfl⟩
        · exact .code hmeets hcomes he
        · exact .unclosed hmeets hread hlast
      · refine .token hts (hlocated.imp_right ?_)
        rintro ⟨item, hitem, rfl⟩
        obtain ⟨x, hx, rfl⟩ := List.mem_map.1 hitem
        exact ⟨x, hx, rfl⟩

-- ============================================================== holes

/-- The body of a literal stands in the text, between its quotes. -/
theorem MeetsLiteral.exists_eq {start q : Nat} {t body : Text} (h : MeetsLiteral start t q body) :
    ∃ pre post, t = pre ++ body ++ post ∧ q + 1 = start + pre.length := by
  obtain ⟨before, after, hts, -⟩ := h
  have hmem : (⟨.template body, q⟩ : Token Text) ∈ before ++ ⟨.template body, q⟩ :: after := by
    simp
  obtain ⟨pre, raw, post, rfl, hpos, -, rfl, -⟩ := exists_of_mem_tokenize hts hmem
  refine ⟨pre ++ [CodePoint.ofChar '`'], CodePoint.ofChar '`' :: post, ?_, ?_⟩
  · simp [quotation]
  · dsimp only at hpos
    simp
    omega

/-- A substitution of a literal stands in the text. -/
theorem MeetsLiteral.holds {start q : Nat} {t body : Text} (h : MeetsLiteral start t q body)
    {x : Substitution} (hcomes : ComesTo (q + 1) body x) :
    ∃ p, q + 1 + x.offset = start + p ∧ BacktickBody.Holds t p x.code := by
  obtain ⟨pre, post, rfl, hq⟩ := h.exists_eq
  obtain ⟨p, hp, hholds⟩ := BacktickBody.holds_of_mem_split hcomes.mem
  exact ⟨_, by omega, hholds.append pre post⟩

/-- A literal that does not close opens where the text meets it. -/
theorem MeetsLiteral.opens {start q place : Nat} {t body : Text} (h : MeetsLiteral start t q body)
    (hlast : (BacktickBody.split 0 body).last = .error place) :
    ∃ p, q + 1 + place = start + p ∧ BacktickBody.Opens t p := by
  obtain ⟨pre, post, rfl, hq⟩ := h.exists_eq
  obtain ⟨p, hp, hopens⟩ := BacktickBody.opens_of_last_split hlast
  exact ⟨_, by omega, hopens.append pre post⟩

/-- The code of a substitution is shorter than the text. -/
theorem MeetsLiteral.length_lt {start q : Nat} {t body : Text} (h : MeetsLiteral start t q body)
    {x : Substitution} (hcomes : ComesTo (q + 1) body x) : x.code.length < t.length := by
  obtain ⟨p, -, before, after, rfl, -⟩ := h.holds hcomes
  simp [BacktickBody.written]
  omega

/-- A refusal further to the right. -/
theorem exists_of_parseAt_eq_error {start p : Nat} {t : Text} {fault : ExprFault}
    (h : parseAt start t = .error (.malformed fault p)) :
    ∃ k, p = start + k ∧ parseAt 0 t = .error (.malformed fault k) := by
  have hmoved := parseAt_add 0 start t
  rw [Nat.zero_add, h] at hmoved
  cases hfirst : parseAt 0 t with
  | ok x => rw [hfirst] at hmoved; cases hmoved
  | error e =>
      rw [hfirst] at hmoved
      cases e with
      | oversized n => cases hmoved
      | malformed fault' k =>
          cases hmoved
          exact ⟨k, Nat.add_comm _ _, rfl⟩

/-- A refusal points to the end of the text or to a code point that is no
blank. -/
theorem lands_of_parseAt {t : Text} {fault : ExprFault} {p : Nat}
    (h : parseAt 0 t = .error (.malformed fault p)) : Lands t p := by
  induction hk : t.length using Nat.strongRecOn generalizing t p with
  | _ k rec =>
      subst hk
      cases cause_of_parseAt h with
      | piece hts => exact lands_of_tokenize hts
      | token hts hp =>
          rcases hp with rfl | ⟨x, hx, rfl⟩
          · exact .inl (Nat.zero_add _)
          · exact lands_of_mem_tokenize hts hx
      | code hmeets hcomes he =>
          obtain ⟨p', hp', hholds⟩ := hmeets.holds hcomes
          obtain ⟨k, rfl, hcode⟩ := exists_of_parseAt_eq_error he
          rw [hp', Nat.zero_add]
          exact (rec _ (hmeets.length_lt hcomes) hcode rfl).of_holds hholds
      | unclosed hmeets hread hlast =>
          obtain ⟨p', hp', before, after, rfl, rfl⟩ := hmeets.opens hlast
          rw [hp', Nat.zero_add]
          exact lands_of_cons before (by decide) _

end Expr

/-- A substitution at its place: the position of its code and the code, or
the position of its dollar sign if it is not closed. -/
inductive Hole where
  | closed (p : Nat) (code : Text)
  | unclosed (p : Nat)

namespace Hole

/-- The substitution stands in a text that starts at a position. -/
def IsIn (start : Nat) (t : Text) : Hole → Prop
  | .closed p code => ∃ k, p = start + k ∧ BacktickBody.Holds t k code
  | .unclosed p => ∃ k, p = start + k ∧ BacktickBody.Opens t k

/-- A position from the first code point of the code to the closing brace,
or of the dollar sign. -/
def Covers (p : Nat) : Hole → Prop
  | .closed q code => q ≤ p ∧ p ≤ q + code.length
  | .unclosed q => p = q

/-- A substitution in code stands in the text around it. -/
theorem IsIn.of_holds {start p : Nat} {t code : Text} (hholds : BacktickBody.Holds t p code)
    {hole : Hole} (h : hole.IsIn (start + p) code) : hole.IsIn start t := by
  obtain ⟨pre, post, rfl, rfl⟩ := hholds.exists_eq
  cases hole with
  | closed q inner =>
      obtain ⟨k, rfl, hk⟩ := h
      exact ⟨_, by omega, hk.append pre _⟩
  | unclosed q =>
      obtain ⟨k, rfl, hk⟩ := h
      exact ⟨_, by omega, hk.append pre _⟩

end Hole

namespace Expr

/-- A text is refused in a substitution: in its code, also in a
substitution of the code, or because it is not closed. -/
inductive RefusedIn : Nat → Text → Hole → Prop where
  | code {start q : Nat} {t body : Text} {x : Substitution} {e : ExprError}
      (hmeets : MeetsLiteral start t q body) (hcomes : ComesTo (q + 1) body x)
      (he : parseAt (q + 1 + x.offset) x.code = .error e) :
      RefusedIn start t (.closed (q + 1 + x.offset) x.code)
  | deeper {start q : Nat} {t body : Text} {x : Substitution} {hole : Hole}
      (hmeets : MeetsLiteral start t q body) (hcomes : ComesTo (q + 1) body x)
      (h : RefusedIn (q + 1 + x.offset) x.code hole) : RefusedIn start t hole
  | unclosed {start q place : Nat} {t body : Text} (hmeets : MeetsLiteral start t q body)
      (hread : ∀ x ∈ (BacktickBody.split 0 body).parts, IsRead (q + 1) x)
      (hlast : (BacktickBody.split 0 body).last = .error place) :
      RefusedIn start t (.unclosed (q + 1 + place))

/-- A text with such a substitution is refused. -/
theorem exists_error_of_refusedIn {start : Nat} {t : Text} {hole : Hole}
    (h : RefusedIn start t hole) : ∃ e, parseAt start t = .error e := by
  induction h with
  | code hmeets hcomes he =>
      exact ⟨_, parseAt_of_meetsLiteral hmeets (readBody_eq_error.2 (.inl ⟨_, hcomes, he⟩))⟩
  | deeper hmeets hcomes _ ih =>
      obtain ⟨e, he⟩ := ih
      exact ⟨e, parseAt_of_meetsLiteral hmeets (readBody_eq_error.2 (.inl ⟨_, hcomes, he⟩))⟩
  | unclosed hmeets hread hlast =>
      exact ⟨_, parseAt_of_meetsLiteral hmeets
        (readBody_eq_error.2 (.inr ⟨hread, _, hlast, rfl⟩))⟩

/-- A refusal in a substitution points into it, or to its dollar sign. -/
theorem covers_of_refusedIn {start p : Nat} {t : Text} {fault : ExprFault} {hole : Hole}
    (hin : RefusedIn start t hole) (h : parseAt start t = .error (.malformed fault p)) :
    hole.IsIn start t ∧ hole.Covers p := by
  induction hin with
  | @code start q t body x e hmeets hcomes he =>
      have herror := parseAt_of_meetsLiteral hmeets (readBody_eq_error.2 (.inl ⟨x, hcomes, he⟩))
      cases herror.symm.trans h
      obtain ⟨k, rfl, hcode⟩ := exists_of_parseAt_eq_error he
      have hle := (lands_of_parseAt hcode).le_length
      exact ⟨hmeets.holds hcomes, Nat.le_add_right _ _, Nat.add_le_add_left hle _⟩
  | @deeper start q t body x hole hmeets hcomes hrefused ih =>
      obtain ⟨e, he⟩ := exists_error_of_refusedIn hrefused
      have herror := parseAt_of_meetsLiteral hmeets (readBody_eq_error.2 (.inl ⟨x, hcomes, he⟩))
      cases herror.symm.trans h
      obtain ⟨hisIn, hcovers⟩ := ih he
      obtain ⟨k, hk, hholds⟩ := hmeets.holds hcomes
      rw [hk] at hisIn
      exact ⟨hisIn.of_holds hholds, hcovers⟩
  | @unclosed start q place t body hmeets hread hlast =>
      have herror := parseAt_of_meetsLiteral hmeets
        (readBody_eq_error.2 (.inr ⟨hread, place, hlast, rfl⟩))
      cases herror.symm.trans h
      exact ⟨hmeets.opens hlast, rfl⟩

/-- A fault of the text itself: of the lexer, or at one of its tokens, or at
its end. -/
def IsOwn (start : Nat) (t : Text) (fault : ExprFault) (p : Nat) : Prop :=
  tokenize start t = .error (.malformed fault p)
    ∨ ∃ ts, tokenize start t = .ok ts ∧ (p = start + t.length ∨ ∃ x ∈ ts, p = x.position)

/-- A refusal that is not in a substitution is at a token of the text. -/
theorem refusedIn_or_isOwn {start p : Nat} {t : Text} {fault : ExprFault}
    (h : parseAt start t = .error (.malformed fault p)) :
    (∃ hole, RefusedIn start t hole) ∨ IsOwn start t fault p := by
  cases cause_of_parseAt h with
  | piece hts => exact .inr (.inl hts)
  | token hts hp => exact .inr (.inr ⟨_, hts, hp⟩)
  | code hmeets hcomes he => exact .inl ⟨_, .code hmeets hcomes he⟩
  | unclosed hmeets hread hlast => exact .inl ⟨_, .unclosed hmeets hread hlast⟩

/-- The position of a refusal points into the text: to its end, or to a
code point that is no blank. If the text is refused in a substitution, it
is a position from the first code point of the substitution's code to the
closing brace, or that of the dollar sign if the substitution is not
closed; if it is refused in none, it is where the lexer is stuck, or that
of a token of the text, or its end. -/
theorem position_in_text {t : Text} {fault : ExprFault} {p : Nat}
    (h : parseBinding t = .error (.malformed fault p)) :
    p ≤ t.length ∧ (p = t.length ∨ ∃ c, t[p]? = some c ∧ c.isBlank = false)
      ∧ (∀ hole, RefusedIn 0 t hole → hole.IsIn 0 t ∧ hole.Covers p)
      ∧ ((∃ hole, RefusedIn 0 t hole) ∨ IsOwn 0 t fault p) := by
  have hparse : parseAt 0 t = .error (.malformed fault p) := bind_pure_eq_error.1 h
  have hlands := lands_of_parseAt hparse
  refine ⟨hlands.le_length, hlands, ?_, refusedIn_or_isOwn hparse⟩
  intro hole hrefused
  exact covers_of_refusedIn hrefused hparse

/-- Code that ends too early, in a substitution of an argument, is refused at
the closing brace. -/
theorem position_in_text_argument :
    let t : Text := ['f', '(', '`', 'a', '$', '{', 'b', '+', '}', '`', ')']
    parseBinding t = .error (.malformed .unexpectedEnd 8) ∧ 8 ≤ t.length
      ∧ (Hole.closed 6 ['b', '+']).IsIn 0 t ∧ (Hole.closed 6 ['b', '+']).Covers 8 := by
  intro t
  have hparts : (BacktickBody.split 0 ['a', '$', '{', 'b', '+', '}']).parts
      = [⟨['a'], ['b', '+'], 3⟩] := by
    cbv
  have hcode : parseAt (2 + 1 + 3) ['b', '+'] = .error (.malformed .unexpectedEnd 8) := by
    have htokens : tokenize (2 + 1 + 3) ['b', '+']
        = .ok [⟨.name ['b'], 6⟩, ⟨.operator (.binary .add), 7⟩] := by
      decide +kernel
    rw [parseAt_eq, htokens]
    cbv
  have hmeets : MeetsLiteral 0 t 2 ['a', '$', '{', 'b', '+', '}'] := by
    refine ⟨[⟨.name ['f'], 0⟩, ⟨.mark .openParen, 1⟩], [⟨.mark .closeParen, 10⟩], ?_, ?_, ?_⟩
    · decide +kernel
    · exact List.forall_mem_cons.2 ⟨rfl, List.forall_mem_singleton.2 rfl⟩
    · cbv
  have hcomes : ComesTo (2 + 1) ['a', '$', '{', 'b', '+', '}'] ⟨['a'], ['b', '+'], 3⟩ :=
    ⟨[], _, [], hparts, by simp, rfl⟩
  have hrefused := RefusedIn.code hmeets hcomes hcode
  have hread : parseBinding t = .error (.malformed .unexpectedEnd 8) :=
    bind_pure_eq_error.2 (parseAt_of_meetsLiteral hmeets
      (readBody_eq_error.2 (.inl ⟨_, hcomes, hcode⟩)))
  obtain ⟨hle, -, hhole, -⟩ := position_in_text hread
  exact ⟨hread, hle, hhole _ hrefused⟩

end Expr

end KeyHarvest
