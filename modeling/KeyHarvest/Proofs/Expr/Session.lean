/-
The reader with a desk reads what the grammar reads. From a desk that
stands before a list of items, every rule goes the way of its symbol in
`Grammar` (`gives_rule`). This is one induction on the number of items, as
in `Simulation`, for which the substitutions of backtick literals are taken
for granted.

They are texts of their own and shorter than the text around them, so the
whole follows by induction on the length of the text: reading a text gives
what `Expr.parseAt` gives, ends, and leaves the desk as it was, from every
desk (`standalone_eq`). So a reader that is used again is as good as a
fresh one.
-/
import KeyHarvest.Proofs.Expr.Desk

namespace KeyHarvest

namespace ReadM

variable {α β : Type} {stop n : Nat} {d : Desk} {ts : List Item}

-- ============================================================== rules

open Grammar (Symbol)

/-- The rule of a symbol. -/
def rule : Symbol → ReadM Expr
  | .primary => Rule.primary.read
  | .access => Rule.access.read
  | .unary => Rule.unary.read
  | .binary level => (Rule.binary level).read
  | .cond => Rule.cond.read
  | .pipe => Rule.pipe.read

/-- All rules read fewer than `n` items the way of their symbols. -/
def GivesBelow (stop n : Nat) : Prop :=
  ∀ symbol ts d, Stands stop d ts → ts.length < n →
    Gives stop outcome (rule symbol d) (Grammar.read stop symbol ts)

-- The loops collect what they have read in a list of their own, so they
-- give what the grammar gives behind what has been there before.
/-- The reader takes the arguments of a filter as the grammar does. -/
theorem gives_pipeArgs (ih : GivesBelow stop n) (h : Stands stop d ts) (hlen : ts.length ≤ n)
    (args : List Expr) :
    Gives stop (fun x : Trailing (List Expr) ts => (args ++ x.value, x.rest))
      ((Rule.pipeArgs args).read d) (Grammar.pipeArgs stop ts) := by
  induction hk : ts.length using Nat.strongRecOn generalizing ts d args with
  | _ m rec =>
      subst hk
      rw [Rule.read]
      rcases accept_cases h (.mark .colon) with ⟨p, r, rfl, hrun, hr⟩ | ⟨hne, hrun⟩
      · rw [bind_accepted hrun]
        simp only [List.length_cons] at hlen rec
        show Gives _ _ _ (Grammar.pipeArgs stop (⟨.mark .colon, p⟩ :: r))
        rw [Grammar.pipeArgs]
        refine (ih .cond r _ hr (by omega)).andThen ?_
        intro e s hs d' hd'
        refine (rec s.length (by omega) hd' (by omega) (args ++ [e]) rfl).wrap ?_
        rintro ⟨es, u, hu⟩
        exact ⟨_, rfl, by simp⟩
      · rw [bind_declined hrun, Grammar.pipeArgs]
        · exact ⟨d, congrArg (fun es => some (Except.ok es, d)) (List.append_nil args).symm, h⟩
        · exact hne

/-- The reader takes the filters of a pipe as the grammar does. -/
theorem gives_pipeTail (ih : GivesBelow stop n) (h : Stands stop d ts) (hlen : ts.length ≤ n)
    (input : Expr) :
    Gives stop remainder ((Rule.pipeTail input).read d) (Grammar.pipeTail stop input ts) := by
  induction hk : ts.length using Nat.strongRecOn generalizing ts d input with
  | _ m rec =>
      subst hk
      rw [Rule.read]
      rcases accept_cases h (.operator .bar) with ⟨p, r, rfl, hrun, hr⟩ | ⟨hne, hrun⟩
      · rw [bind_accepted hrun]
        simp only [List.length_cons] at hlen rec
        show Gives _ _ ((name .missingPipeName >>= _) _)
          (Grammar.pipeTail stop input (⟨.operator .bar, p⟩ :: r))
        rcases name_cases hr .missingPipeName with ⟨t, s, n, rfl, ht, hname, hs⟩ | ⟨hn, hname⟩
        · rw [bind_of_ok hname, Grammar.pipeTail]
          simp only [ht]
          simp only [List.length_cons] at hlen rec
          refine (gives_pipeArgs ih hs (by omega) []).bind ?_
          rintro ⟨args, u, hu⟩ d' hd'
          refine (rec u.length (by omega) hd' (by simp only; omega) _ rfl).wrap ?_
          rintro ⟨e, v, hv⟩
          exact ⟨_, rfl, rfl⟩
        · rw [bind_of_error hname, Grammar.pipeTail_unnamed hn]
          exact ⟨_, rfl⟩
      · rw [bind_declined hrun, Grammar.pipeTail]
        · exact ⟨d, rfl, h⟩
        · intro p t r
          exact hne p (t :: r)
        · intro p
          exact hne p []

/-- The reader takes the operators of a level as the grammar does. -/
theorem gives_binaryTail (ih : GivesBelow stop n) (h : Stands stop d ts) (hlen : ts.length ≤ n)
    (level : Nat) (left : Expr) :
    Gives stop remainder ((Rule.binaryTail level left).read d)
      (Grammar.binaryTail stop level left ts) := by
  induction hk : ts.length using Nat.strongRecOn generalizing ts d left with
  | _ m rec =>
      subst hk
      rw [Rule.read, bind_of_ok (current_run d)]
      rcases h.cases with ⟨rfl, p, hp, -⟩ | ⟨k, p, r, rfl, hcurrent, -, hr⟩
      · rw [hp, Grammar.binaryTail]
        · exact ⟨d, rfl, h⟩
        · simp
      · by_cases hk : ∃ op, k = .operator (.binary op)
        · obtain ⟨op, rfl⟩ := hk
          simp only [List.length_cons] at hlen rec
          show Gives _ _ _
            (Grammar.binaryTail stop level left (⟨.operator (.binary op), d.offset + p⟩ :: r))
          rw [hcurrent, Grammar.binaryTail]
          by_cases hop : op.level = level + 1
          · simp only [if_pos hop]
            rw [bind_of_ok (advance_run d)]
            refine (ih (.binary level) r _ hr (by omega)).andThen ?_
            intro right s hs d' hd'
            refine (rec s.length (by omega) hd' (by omega) _ rfl).wrap ?_
            rintro ⟨e, u, hu⟩
            exact ⟨_, rfl, rfl⟩
          · simp only [if_neg hop]
            exact ⟨d, rfl, h⟩
        · have hrun : (Rule.binaryTail level left).read d = some (.ok left, d) := by
            rw [Rule.read, bind_of_ok (current_run d), hcurrent]
            cases k with
            | operator op =>
                cases op with
                | binary op => exact absurd ⟨op, rfl⟩ hk
                | _ => rfl
            | _ => rfl
          rw [Rule.read, bind_of_ok (current_run d)] at hrun
          rw [hrun, Grammar.binaryTail]
          · exact ⟨d, rfl, h⟩
          · intro op q s heq
            obtain ⟨hitem, -⟩ := List.cons.inj heq
            exact hk ⟨op, (toItem_kind_eq (.operator (.binary op)) k _).1 (by rw [hitem]; rfl)⟩

-- ========================================================== sequences

/-- The reader takes the key of an access as the grammar does. -/
theorem gives_keyTail (ih : GivesBelow stop n) (h : Stands stop d ts) (hlen : ts.length < n) :
    Gives stop outcome (Rule.keyTail.read d) (Grammar.keyTail stop ts) := by
  rw [Rule.read, Grammar.keyTail]
  refine (ih .pipe ts d h hlen).andThen ?_
  intro key r hr d' hd'
  rcases accept_cases hd' (.mark .closeBracket) with ⟨p, s, rfl, hrun, hs⟩ | ⟨hne, hrun⟩
  · rw [bind_accepted hrun]
    exact ⟨_, rfl, hs⟩
  · rw [bind_declined hrun]
    dsimp only
    split
    · exact absurd rfl (hne _ _)
    · exact Gives.refuse hd' _

/-- The reader takes the items of a sequence as the grammar does. -/
theorem gives_items (ih : GivesBelow stop n) (h : Stands stop d ts) (hlen : ts.length < n)
    (closer : Mark) (before : List Expr) :
    Gives stop (fun x : Reading (List Expr) ts => (before ++ x.value, x.rest))
      ((Rule.items closer before).read d) (Grammar.items stop closer ts) := by
  induction hk : ts.length using Nat.strongRecOn generalizing ts d before with
  | _ m rec =>
      subst hk
      rw [Rule.read, Grammar.items]
      refine (ih .pipe ts d h hlen).andThen ?_
      intro e r hr d' hd'
      rcases accept_cases hd' (.mark .comma) with ⟨p, s, rfl, hrun, hs⟩ | ⟨hne, hrun⟩
      · rw [bind_accepted hrun]
        simp only [List.length_cons] at hr
        refine (rec s.length (by omega) hs (by omega) (before ++ [e]) rfl).wrap ?_
        rintro ⟨es, u, hu⟩
        exact ⟨_, rfl, by simp⟩
      · rw [bind_declined hrun]
        rcases accept_cases hd' (.mark closer) with ⟨p, s, rfl, hrun', hs⟩ | ⟨hne', hrun'⟩
        · have hcomma : closer ≠ .comma := by
            rintro rfl
            exact hne p s rfl
          rw [bind_accepted hrun']
          show Gives _ _ _ (if closer = .comma then _ else if closer = closer then _ else _)
          rw [if_neg hcomma, if_pos rfl]
          exact ⟨_, rfl, hs⟩
        · rw [bind_declined hrun']
          dsimp only
          split
          · next m p s hs =>
              rw [if_neg fun hm => hne p s (by rw [hm]; rfl),
                if_neg fun hm => hne' p s (by rw [hm]; rfl)]
              exact Gives.refuse hd' _
          · exact Gives.refuse hd' _

/-- The reader takes a sequence as the grammar does. -/
theorem gives_sequence (ih : GivesBelow stop n) (h : Stands stop d ts) (hlen : ts.length < n)
    (closer : Mark) :
    Gives stop outcome ((Rule.sequence closer).read d) (Grammar.sequence stop closer ts) := by
  rw [Rule.read]
  rcases accept_cases h (.mark closer) with ⟨p, r, rfl, hrun, hr⟩ | ⟨hne, hrun⟩
  · rw [bind_accepted hrun]
    show Gives _ _ _ (Grammar.sequence stop closer (⟨.mark closer, p⟩ :: r))
    rw [Grammar.sequence, if_pos rfl]
    exact ⟨_, rfl, hr⟩
  · rw [bind_declined hrun, Grammar.sequence_eq_items hne]
    exact gives_items ih h hlen closer []

-- =============================================================== maps

/-- The reader takes the value of an entry as the grammar does. -/
theorem gives_entryValue (ih : GivesBelow stop n) (h : Stands stop d ts) (hlen : ts.length ≤ n)
    (key : MapKey) :
    Gives stop remainder ((Rule.entryValue key).read d) (Grammar.entryValue stop key ts) := by
  rw [Rule.read]
  rcases accept_cases h (.mark .colon) with ⟨p, r, rfl, hrun, hr⟩ | ⟨hne, hrun⟩
  · rw [bind_accepted hrun]
    simp only [List.length_cons] at hlen
    show Gives _ _ _ (Grammar.entryValue stop key (⟨.mark .colon, p⟩ :: r))
    rw [Grammar.entryValue]
    refine (ih .pipe r _ hr (by omega)).wrap ?_
    rintro ⟨e, s, hs⟩
    exact ⟨_, rfl, rfl⟩
  · rw [bind_declined hrun, Grammar.entryValue]
    · by_cases hq : key.quoted = true
      · simp only [if_pos hq]
        exact Gives.refuse h _
      · simp only [if_neg hq]
        exact ⟨d, rfl, h⟩
    · exact hne

/-- The reader takes the entries of a map as the grammar does. -/
theorem gives_entries (ih : GivesBelow stop n) (h : Stands stop d ts) (hlen : ts.length ≤ n)
    (keys : List MapKey) (values : List Expr) :
    Gives stop
      (fun x : Reading (List MapKey × List Expr) ts =>
        ((keys ++ x.value.1, values ++ x.value.2), x.rest))
      ((Rule.entries keys values).read d) (Grammar.entries stop ts) := by
  induction hk : ts.length using Nat.strongRecOn generalizing ts d keys values with
  | _ m rec =>
      subst hk
      rw [Rule.read, bind_of_ok (current_run d)]
      rcases h.cases with ⟨rfl, p, hp, -⟩ | ⟨k, p, r, rfl, hcurrent, -, hr⟩
      · rw [hp, Grammar.entries]
        exact Gives.refuse h _
      · have hkey := mapKeyOf?_toItem k (d.offset + p)
        rw [hcurrent, Grammar.entries]
        simp only [Option.bind_some]
        cases hk : mapKeyOf? k with
        | none =>
            rw [hk] at hkey
            simp only [hkey]
            exact Gives.refuse h _
        | some key =>
            rw [hk] at hkey
            simp only [hkey]
            simp only [List.length_cons] at hlen rec
            rw [bind_of_ok (advance_run d)]
            refine (gives_entryValue ih hr (by omega) key).afterward ?_
            intro value s hs d' hd'
            rcases accept_cases hd' (.mark .comma) with ⟨q, u, rfl, hrun, hu⟩ | ⟨hne, hrun⟩
            · rw [bind_accepted hrun]
              simp only [List.length_cons] at hs
              refine (rec u.length (by omega) hu (by omega) (keys ++ [key]) (values ++ [value])
                rfl).wrap ?_
              rintro ⟨more, v, hv⟩
              exact ⟨_, rfl, by simp⟩
            · rw [bind_declined hrun]
              rcases accept_cases hd' (.mark .closeBrace) with
                ⟨q, u, rfl, hrun', hu⟩ | ⟨hne', hrun'⟩
              · rw [bind_accepted hrun']
                exact ⟨_, rfl, hu⟩
              · rw [bind_declined hrun']
                dsimp only
                split
                · exact absurd rfl (hne _ _)
                · exact absurd rfl (hne' _ _)
                · exact Gives.refuse hd' _

/-- The reader takes the body of a map as the grammar does. -/
theorem gives_mapBody (ih : GivesBelow stop n) (h : Stands stop d ts) (hlen : ts.length ≤ n) :
    Gives stop outcome (Rule.mapBody.read d) (Grammar.mapBody stop ts) := by
  rw [Rule.read]
  rcases accept_cases h (.mark .closeBrace) with ⟨p, r, rfl, hrun, hr⟩ | ⟨hne, hrun⟩
  · rw [bind_accepted hrun]
    show Gives _ _ _ (Grammar.mapBody stop (⟨.mark .closeBrace, p⟩ :: r))
    rw [Grammar.mapBody]
    exact ⟨_, rfl, hr⟩
  · rw [bind_declined hrun, Grammar.mapBody]
    · exact gives_entries ih h hlen [] []
    · exact hne

-- ============================================================= access

/-- A safe index, call or property, when what follows it is read the same
way. -/
theorem gives_accessTail_safe (ih : GivesBelow stop n) {receiver : Expr} {p : Nat}
    {r : List Item} (h : Stands stop d r) (hlen : r.length < n)
    (rec : ∀ e r' d', Stands stop d' r' → r'.length ≤ r.length →
      Gives stop remainder ((Rule.accessTail e).read d') (Grammar.accessTail stop e r')) :
    Gives stop remainder
      ((do
        if ← accept (.mark .openBracket) then
          let key ← Rule.keyTail.read
          (Rule.accessTail (.safeIndex receiver key)).read
        else if ← accept (.mark .openParen) then
          let args ← (Rule.sequence .closeParen).read
          (Rule.accessTail (.safeCall receiver args)).read
        else
          let n ← name .missingSafePropertyName
          (Rule.accessTail (.safeProperty receiver n)).read : ReadM Expr) d)
      (Grammar.accessTail stop receiver (⟨.operator .optional, p⟩ :: r)) := by
  rcases accept_cases h (.mark .openBracket) with ⟨q, r', rfl, hrun, hr⟩ | ⟨hb, hrun⟩
  · rw [bind_accepted hrun]
    simp only [List.length_cons] at hlen rec
    show Gives _ _ _ (Grammar.accessTail stop receiver (_ :: ⟨.mark .openBracket, q⟩ :: r'))
    rw [Grammar.accessTail]
    refine (gives_keyTail ih hr (by omega)).andThen ?_
    intro key s hs d' hd'
    refine (rec _ s d' hd' (by omega)).wrap ?_
    rintro ⟨e, u, hu⟩
    exact ⟨_, rfl, rfl⟩
  rw [bind_declined hrun]
  rcases accept_cases h (.mark .openParen) with ⟨q, r', rfl, hrun, hr⟩ | ⟨hp, hrun⟩
  · rw [bind_accepted hrun]
    simp only [List.length_cons] at hlen rec
    show Gives _ _ _ (Grammar.accessTail stop receiver (_ :: ⟨.mark .openParen, q⟩ :: r'))
    rw [Grammar.accessTail]
    refine (gives_sequence ih hr (by omega) .closeParen).andThen ?_
    intro args s hs d' hd'
    refine (rec _ s d' hd' (by omega)).wrap ?_
    rintro ⟨e, u, hu⟩
    exact ⟨_, rfl, rfl⟩
  rw [bind_declined hrun]
  rcases name_cases h .missingSafePropertyName with ⟨t, r', n, rfl, ht, hname, hr⟩ | ⟨hn, hname⟩
  · rw [bind_of_ok hname, Grammar.accessTail_safe_named ht]
    simp only [List.length_cons] at rec
    refine (rec _ r' _ hr (by omega)).wrap ?_
    rintro ⟨e, u, hu⟩
    exact ⟨_, rfl, rfl⟩
  · have hlead : ∀ m : Mark, (∀ p s, r ≠ ⟨(Sign.mark m).kind, p⟩ :: s) →
        Grammar.lead r ≠ some (.mark m) := by
      intro m hne hm
      obtain ⟨q, s, hr⟩ := Grammar.lead_eq_some.1 hm
      exact hne q s hr
    rw [bind_of_error hname, Grammar.accessTail_safe_unnamed (hlead _ hb) (hlead _ hp) hn]
    exact ⟨_, rfl⟩

/-- The reader takes the parts of an access as the grammar does. -/
theorem gives_accessTail (ih : GivesBelow stop n) (h : Stands stop d ts) (hlen : ts.length ≤ n)
    (receiver : Expr) :
    Gives stop remainder ((Rule.accessTail receiver).read d)
      (Grammar.accessTail stop receiver ts) := by
  induction hk : ts.length using Nat.strongRecOn generalizing ts d receiver with
  | _ m rec =>
      subst hk
      rw [Rule.read]
      rcases accept_cases h (.mark .dot) with ⟨p, r, rfl, hrun, hr⟩ | ⟨hdot, hrun⟩
      · rw [bind_accepted hrun]
        show Gives _ _ _ (Grammar.accessTail stop receiver (⟨.mark .dot, p⟩ :: r))
        rcases name_cases hr .missingPropertyName with ⟨t, s, n, rfl, ht, hname, hs⟩ | ⟨hn, hname⟩
        · simp only [List.length_cons] at hlen rec
          rw [bind_of_ok hname, Grammar.accessTail]
          simp only [ht]
          refine (rec s.length (by omega) hs (by omega) _ rfl).wrap ?_
          rintro ⟨e, u, hu⟩
          exact ⟨_, rfl, rfl⟩
        · rw [bind_of_error hname, Grammar.accessTail_unnamed hn]
          exact ⟨_, rfl⟩
      rw [bind_declined hrun]
      rcases accept_cases h (.operator .optional) with ⟨p, r, rfl, hrun, hr⟩ | ⟨hsafe, hrun⟩
      · rw [bind_accepted hrun]
        simp only [List.length_cons] at hlen rec
        exact gives_accessTail_safe ih hr (by omega) fun e r' d' hd' hr' =>
          rec r'.length (by omega) hd' (by omega) e rfl
      rw [bind_declined hrun]
      rcases accept_cases h (.mark .openBracket) with ⟨p, r, rfl, hrun, hr⟩ | ⟨hindex, hrun⟩
      · rw [bind_accepted hrun]
        simp only [List.length_cons] at hlen rec
        show Gives _ _ _ (Grammar.accessTail stop receiver (⟨.mark .openBracket, p⟩ :: r))
        rw [Grammar.accessTail]
        refine (gives_keyTail ih hr (by omega)).andThen ?_
        intro key s hs d' hd'
        refine (rec s.length (by omega) hd' (by omega) _ rfl).wrap ?_
        rintro ⟨e, u, hu⟩
        exact ⟨_, rfl, rfl⟩
      rw [bind_declined hrun]
      rcases accept_cases h (.mark .openParen) with ⟨p, r, rfl, hrun, hr⟩ | ⟨hcall, hrun⟩
      · rw [bind_accepted hrun]
        simp only [List.length_cons] at hlen rec
        show Gives _ _ _ (Grammar.accessTail stop receiver (⟨.mark .openParen, p⟩ :: r))
        rw [Grammar.accessTail]
        refine (gives_sequence ih hr (by omega) .closeParen).andThen ?_
        intro args s hs d' hd'
        refine (rec s.length (by omega) hd' (by omega) _ rfl).wrap ?_
        rintro ⟨e, u, hu⟩
        exact ⟨_, rfl, rfl⟩
      rw [bind_declined hrun]
      rcases accept_cases h (.operator .bang) with ⟨p, r, rfl, hrun, hr⟩ | ⟨hbang, hrun⟩
      · rw [bind_accepted hrun]
        simp only [List.length_cons] at hlen rec
        show Gives _ _ _ (Grammar.accessTail stop receiver (⟨.operator .bang, p⟩ :: r))
        rw [Grammar.accessTail]
        refine (rec r.length (by omega) hr (by omega) _ rfl).wrap ?_
        rintro ⟨e, u, hu⟩
        exact ⟨_, rfl, rfl⟩
      rw [bind_declined hrun]
      -- every sign was declined, so the grammar stops here as well
      have hjoint : Grammar.joint ts ≠ some .access := by
        intro hj
        obtain ⟨k, p, r, hk, rfl⟩ := Grammar.exists_joins_of_joint hj
        rcases Grammar.joins_eq_some hk with
          ⟨-, rfl | rfl | rfl | rfl | rfl⟩ | ⟨op, hs, -⟩ | ⟨hs, -⟩ | ⟨hs, -⟩
        · exact hdot p r rfl
        · exact hindex p r rfl
        · exact hcall p r rfl
        · exact hsafe p r rfl
        · exact hbang p r rfl
        · cases hs
        · cases hs
        · cases hs
      obtain ⟨_, hx⟩ := Grammar.accessTail_iff.2 (.inl ⟨hjoint, rfl, rfl⟩)
      rw [hx]
      exact ⟨d, rfl, h⟩

-- =========================================================== operands

/-- The substitutions of a backtick body, one after the other. -/
theorem substitutions_eq {start : Nat} {parts : List Substitution}
    (h : ∀ part ∈ parts, ∀ offset d,
      standalone part.code offset d = some (Expr.parseAt offset part.code, d)) (d : Desk) :
    (Rule.substitutions start parts).read d
      = some (parts.mapM fun part => Expr.parseAt (start + part.offset) part.code, d) := by
  induction parts with
  | nil => rw [Rule.read]; rfl
  | cons part parts ih =>
      rw [Rule.read, List.mapM_cons]
      refine bind_at_rest (h part List.mem_cons_self (start + part.offset) d) ?_
      intro e
      refine bind_at_rest (ih fun p hp => h p (List.mem_cons_of_mem _ hp)) ?_
      intro es
      rfl

/-- A backtick literal is read from every desk, which is left as it was. -/
theorem template_eq {raw : Text} (h : Reenters raw) (start : Nat) (d : Desk) :
    (Rule.template raw start).read d = some (Expr.readBody start raw, d) := by
  rw [Rule.read, Expr.readBody]
  refine bind_at_rest (substitutions_eq h d) ?_
  intro es
  cases Expr.ofBody start (BacktickBody.split 0 raw) es <;> rfl

/-- A reserved word that is no operand is refused where it stands. -/
theorem gives_keyword {out : β → α × List Item} (d : Desk) (p : Nat) (word : Keyword) :
    Gives stop out
      ((do throw (.malformed (.unexpectedKeyword word) ((← get).offset + p)) : ReadM α) d.step)
      (.error (.malformed (.unexpectedKeyword word) (d.offset + p))) := by
  refine ⟨d.step, ?_⟩
  rw [← d.step_offset]
  rfl

/-- The reader takes a primary as the grammar does, when it takes all that
is shorter so. -/
theorem gives_primary (ih : GivesBelow stop ts.length) (h : Stands stop d ts) :
    Gives stop outcome (Rule.primary.read d) (Grammar.primary stop ts) := by
  rw [Rule.read, bind_of_ok (current_run d)]
  rcases h.cases with ⟨rfl, p, hp, -⟩ | ⟨k, p, r, rfl, hcurrent, hk, hr⟩
  · rw [hp, Grammar.primary]
    exact Gives.refuse h _
  rw [hcurrent, Grammar.primary]
  have hlen : r.length < (Expr.toItem ⟨k, d.offset + p⟩ :: r).length := Nat.lt_succ_self _
  cases k with
  | keyword word =>
      cases word
      all_goals
        show Gives _ _ ((advance >>= _) d) _
        rw [bind_of_ok (advance_run d)]
      case typeof => exact gives_keyword d p .typeof
      case void => exact gives_keyword d p .void
      all_goals exact ⟨_, rfl, hr⟩
  | name n =>
      show Gives _ _ ((advance >>= _) d) _
      rw [bind_of_ok (advance_run d)]
      exact ⟨_, rfl, hr⟩
  | text value =>
      show Gives _ _ ((advance >>= _) d) _
      rw [bind_of_ok (advance_run d)]
      exact ⟨_, rfl, hr⟩
  | number value =>
      show Gives _ _ ((advance >>= _) d) _
      rw [bind_of_ok (advance_run d)]
      exact ⟨_, rfl, hr⟩
  | template raw =>
      show Gives _ _ ((advance >>= _) d) _
      rw [bind_of_ok (advance_run d)]
      -- a backtick literal is read by a parser of its own, and this one goes on behind it
      show Gives _ _ ((Rule.template raw (d.step.offset + p + 1)).read d.step)
        (Expr.readBody (d.offset + p + 1) raw >>= _)
      rw [template_eq (hk raw rfl), d.step_offset]
      cases Expr.readBody (d.offset + p + 1) raw with
      | error e => exact ⟨_, rfl⟩
      | ok e => exact ⟨_, rfl, hr⟩
  | operator op => exact Gives.refuse h _
  | mark m =>
      cases m with
      | openParen =>
          show Gives _ _ ((advance >>= _) d) _
          rw [bind_of_ok (advance_run d)]
          refine (ih .pipe r _ hr hlen).andThen ?_
          intro e s hs d' hd'
          rcases accept_cases hd' (.mark .closeParen) with ⟨q, u, rfl, hrun, hu⟩ | ⟨hne, hrun⟩
          · rw [bind_accepted hrun]
            exact ⟨_, rfl, hu⟩
          · rw [bind_declined hrun]
            dsimp only
            split
            · exact absurd rfl (hne _ _)
            · exact Gives.refuse hd' _
      | openBracket =>
          show Gives _ _ ((advance >>= _) d) _
          rw [bind_of_ok (advance_run d)]
          refine (gives_sequence ih hr hlen .closeBracket).andThen ?_
          intro es s hs d' hd'
          exact ⟨_, rfl, hd'⟩
      | openBrace =>
          show Gives _ _ ((advance >>= _) d) _
          rw [bind_of_ok (advance_run d)]
          refine (gives_mapBody ih hr (Nat.le_of_lt hlen)).andThen ?_
          intro entries s hs d' hd'
          exact ⟨_, rfl, hd'⟩
      | _ => exact Gives.refuse h _

/-- The reader takes an access as the grammar does, when it takes all that
is shorter so. -/
theorem gives_access (ih : GivesBelow stop ts.length) (h : Stands stop d ts) :
    Gives stop outcome (Rule.access.read d) (Grammar.access stop ts) := by
  rw [Rule.read, Grammar.access]
  refine (gives_primary ih h).andThen ?_
  intro receiver r hr d' hd'
  refine (gives_accessTail ih hd' (Nat.le_of_lt hr) receiver).wrap ?_
  rintro ⟨e, s, hs⟩
  exact ⟨_, rfl, rfl⟩

/-- An operator in front of an operand. -/
theorem gives_prefixed {k : TokenKind Backtick} {p : Nat} {r : List Item} {make : Expr → Expr}
    (ih : GivesBelow stop (⟨k, p⟩ :: r : List Item).length) (h : Stands stop d r)
    (hk : Grammar.prefixed k = some make) :
    Gives stop outcome ((do return make (← Rule.unary.read) : ReadM Expr) d)
      (Grammar.unary stop (⟨k, p⟩ :: r)) := by
  rw [Grammar.unary_of_prefixed hk]
  refine (ih .unary r d h (Nat.lt_succ_self _)).andThen ?_
  intro e s hs d' hd'
  exact ⟨d', rfl, hd'⟩

/-- The reader takes a unary as the grammar does, when it takes all that is
shorter so. -/
theorem gives_unary (ih : GivesBelow stop ts.length) (h : Stands stop d ts) :
    Gives stop outcome (Rule.unary.read d) (Grammar.unary stop ts) := by
  rw [Rule.read]
  rcases accept_cases h (.operator .bang) with ⟨p, r, rfl, hrun, hr⟩ | ⟨hbang, hrun⟩
  · rw [bind_accepted hrun]
    exact gives_prefixed ih hr rfl
  rw [bind_declined hrun]
  rcases accept_cases h (.operator (.binary .sub)) with ⟨p, r, rfl, hrun, hr⟩ | ⟨hminus, hrun⟩
  · rw [bind_accepted hrun]
    exact gives_prefixed ih hr rfl
  rw [bind_declined hrun]
  rcases accept_cases h (.operator (.binary .add)) with ⟨p, r, rfl, hrun, hr⟩ | ⟨hplus, hrun⟩
  · rw [bind_accepted hrun]
    exact gives_prefixed ih hr rfl
  rw [bind_declined hrun]
  rcases accept_cases h (.keyword .typeof) with ⟨p, r, rfl, hrun, hr⟩ | ⟨htypeof, hrun⟩
  · rw [bind_accepted hrun]
    exact gives_prefixed ih hr rfl
  rw [bind_declined hrun]
  rcases accept_cases h (.keyword .void) with ⟨p, r, rfl, hrun, hr⟩ | ⟨hvoid, hrun⟩
  · rw [bind_accepted hrun]
    exact gives_prefixed ih hr rfl
  rw [bind_declined hrun]
  have hnone : Grammar.unary stop ts = Grammar.access stop ts := by
    rw [Grammar.unary]
    · exact hbang
    · exact hminus
    · exact hplus
    · exact htypeof
    · exact hvoid
  rw [hnone]
  exact gives_access ih h

/-- The reader takes a power as the grammar does, when it takes all that is
shorter so. -/
theorem gives_power (ih : GivesBelow stop ts.length) (h : Stands stop d ts) :
    Gives stop outcome (Rule.power.read d) (Grammar.power stop ts) := by
  rw [Rule.read, Grammar.power]
  refine (gives_unary ih h).andThen ?_
  intro base r hr d' hd'
  rcases accept_cases hd' (.operator (.binary .pow)) with ⟨p, s, rfl, hrun, hs⟩ | ⟨hne, hrun⟩
  · rw [bind_accepted hrun]
    have hpower := ih (.binary 0) s _ hs (Nat.lt_of_succ_lt hr)
    simp only [rule, Grammar.read, Grammar.binary_zero] at hpower
    rw [Rule.read] at hpower
    refine hpower.andThen ?_
    intro exponent u hu d₁ hd₁
    exact ⟨_, rfl, hd₁⟩
  · rw [bind_declined hrun]
    dsimp only
    split
    · exact absurd rfl (hne _ _)
    · exact ⟨d', rfl, hd'⟩

/-- The reader takes a level of operators as the grammar does, when it takes
all that is shorter so. -/
theorem gives_binary (ih : GivesBelow stop ts.length) (h : Stands stop d ts) (level : Nat) :
    Gives stop outcome ((Rule.binary level).read d) (Grammar.binary stop level ts) := by
  induction level with
  | zero =>
      rw [Rule.read_binary_zero, Grammar.binary_zero]
      exact gives_power ih h
  | succ level rec =>
      rw [Rule.read, Grammar.binary]
      refine rec.andThen ?_
      intro left r hr d' hd'
      refine (gives_binaryTail ih hd' (Nat.le_of_lt hr) level left).wrap ?_
      rintro ⟨e, s, hs⟩
      exact ⟨_, rfl, rfl⟩

/-- The reader takes a choice as the grammar does, when it takes all that is
shorter so. -/
theorem gives_cond (ih : GivesBelow stop ts.length) (h : Stands stop d ts) :
    Gives stop outcome (Rule.cond.read d) (Grammar.cond stop ts) := by
  rw [Rule.read, Grammar.cond]
  refine (gives_binary ih h BinaryOp.loosest).andThen ?_
  intro test r hr d₁ hd₁
  rcases accept_cases hd₁ (.operator .question) with ⟨p, s, rfl, hrun, hs⟩ | ⟨hne, hrun⟩
  · rw [bind_accepted hrun]
    have hs' : s.length < ts.length := Nat.lt_of_succ_lt hr
    refine (ih .pipe s _ hs hs').andThen ?_
    intro yes u hu d₂ hd₂
    rcases accept_cases hd₂ (.mark .colon) with ⟨q, v, rfl, hrun', hv⟩ | ⟨hne', hrun'⟩
    · rw [bind_accepted hrun']
      refine (ih .pipe v _ hv (Nat.lt_trans (Nat.lt_of_succ_lt hu) hs')).andThen ?_
      intro no w hw d₃ hd₃
      exact ⟨_, rfl, hd₃⟩
    · rw [bind_declined hrun']
      dsimp only
      split
      · exact absurd rfl (hne' _ _)
      · exact Gives.refuse hd₂ _
  · rw [bind_declined hrun]
    dsimp only
    split
    · exact absurd rfl (hne _ _)
    · exact ⟨d₁, rfl, hd₁⟩

/-- The reader takes a pipe as the grammar does, when it takes all that is
shorter so. -/
theorem gives_pipe (ih : GivesBelow stop ts.length) (h : Stands stop d ts) :
    Gives stop outcome (Rule.pipe.read d) (Grammar.pipe stop ts) := by
  rw [Rule.read, Grammar.pipe]
  refine (gives_cond ih h).andThen ?_
  intro input r hr d' hd'
  refine (gives_pipeTail ih hd' (Nat.le_of_lt hr) input).wrap ?_
  rintro ⟨e, s, hs⟩
  exact ⟨_, rfl, rfl⟩

/-- Every rule goes the way of its symbol. -/
theorem gives_rule (symbol : Symbol) (h : Stands stop d ts) :
    Gives stop outcome (rule symbol d) (Grammar.read stop symbol ts) := by
  suffices hall : ∀ n, GivesBelow stop n from
    hall (ts.length + 1) symbol ts d h (Nat.lt_succ_self _)
  intro n
  induction n with
  | zero =>
      intro symbol ts d h hlen
      exact absurd hlen (Nat.not_lt_zero _)
  | succ n ih =>
      intro symbol ts d h hlen
      have ih : GivesBelow stop ts.length := fun symbol ts' d' h' hlen' =>
        ih symbol ts' d' h' (Nat.lt_of_lt_of_le hlen' (Nat.le_of_lt_succ hlen))
      cases symbol with
      | primary => exact gives_primary ih h
      | access => exact gives_access ih h
      | unary => exact gives_unary ih h
      | binary level => exact gives_binary ih h level
      | cond => exact gives_cond ih h
      | pipe => exact gives_pipe ih h

-- ============================================================== texts

/-- The slots of a text are the items of its tokens, at their places. -/
theorem ahead_slots {ts : List (Token Text)} {offset size : Nat}
    (h : ∀ u ∈ ts, ∀ raw, u.kind = .template raw → Reenters raw) :
    Ahead (offset + size) offset
      (ts.map (fun u => (⟨some u.kind, u.position⟩ : Slot)) ++ [⟨none, size⟩])
      ((ts.map (Token.move offset)).map Expr.toItem) := by
  induction ts with
  | nil => exact .done rfl
  | cons u ts ih =>
      have hmore := Ahead.more (p := u.position) (h u List.mem_cons_self)
        (ih fun v hv => h v (List.mem_cons_of_mem _ hv))
      rw [Nat.add_comm offset u.position] at hmore
      exact hmore

/-- What has been taken up is read to its end. -/
theorem exists_whole_eq (h : Stands stop d ts) :
    ∃ d', Rule.whole.read d = some (Grammar.whole stop ts, d') := by
  rw [Rule.read, bind_of_ok (current_run d)]
  rcases h.cases with ⟨rfl, p, hp, -⟩ | ⟨k, p, r, rfl, hcurrent, -, -⟩
  · rw [hp]
    exact ⟨d, rfl⟩
  have hpipe : Gives stop outcome (Rule.pipe.read d) (Grammar.pipe stop _) := gives_rule .pipe h
  rw [hcurrent, Grammar.whole]
  show ∃ d', (Rule.pipe.read >>= _) d = some (_, d')
  cases hread : Grammar.pipe stop (Expr.toItem ⟨k, d.offset + p⟩ :: r) with
  | error e =>
      rw [hread] at hpipe
      obtain ⟨d₁, hrun⟩ := hpipe
      exact ⟨d₁, bind_of_error hrun⟩
  | ok x =>
      rw [hread] at hpipe
      obtain ⟨d₁, hrun, hd₁⟩ := hpipe
      obtain ⟨e, s, hs⟩ := x
      rw [bind_of_ok hrun, bind_of_ok (current_run d₁)]
      rcases hd₁.cases with ⟨hrest, q, hq, -⟩ | ⟨k', q, u, hrest, hcurrent', -, -⟩
      · obtain rfl : s = [] := hrest
        rw [hq]
        exact ⟨d₁, rfl⟩
      · obtain rfl : s = Expr.toItem ⟨k', d₁.offset + q⟩ :: u := hrest
        rw [hcurrent']
        refine ⟨d₁, ?_⟩
        show refuse (.unexpectedToken (k'.shown id)) d₁
          = some (Grammar.fail stop (.unexpectedToken (Grammar.shown _)) _, d₁)
        rw [shown_toItem, refuse_run, hd₁.place_eq]
        rfl

/-- A text is read from every desk, when the substitutions in it are. -/
theorem exists_begin_eq {t : Text} (offset : Nat) (d : Desk)
    (h : ∀ ts, tokenize 0 t = .ok ts → ∀ u ∈ ts, ∀ raw, u.kind = .template raw → Reenters raw) :
    ∃ d', (do begin t offset; Rule.whole.read : ReadM Expr) d
      = some (Expr.parseAt offset t, d') := by
  have htokens := tokenize_add 0 offset t
  rw [Nat.zero_add] at htokens
  rw [Expr.parseAt_eq, htokens]
  cases hts : tokenize 0 t with
  | error e =>
      have hbegin : begin t offset d = some (.error (e.move offset), d) := by
        rw [begin, hts]
        cases e <;> rfl
      exact ⟨d, bind_of_error hbegin⟩
  | ok ts =>
      have hbegin : ∃ d', begin t offset d = some (.ok (), d')
          ∧ Stands (offset + t.length) d' ((ts.map (Token.move offset)).map Expr.toItem) := by
        rw [begin, hts]
        exact ⟨_, rfl, ahead_slots (h ts hts)⟩
      obtain ⟨d₁, hbegin, hd₁⟩ := hbegin
      rw [bind_of_ok hbegin]
      exact exists_whole_eq hd₁

/-- Reading a text gives its expression, or refuses it, and leaves the desk
as it was. -/
theorem standalone_eq (t : Text) (offset : Nat) (d : Desk) :
    standalone t offset d = some (Expr.parseAt offset t, d) := by
  -- the code of a substitution is shorter than the text around it
  have hreenters : ∀ ts, tokenize 0 t = .ok ts →
      ∀ u ∈ ts, ∀ raw, u.kind = .template raw → Reenters raw := by
    rintro ts hts ⟨_, p⟩ hmem raw rfl part hpart offset' d'
    have hraw : raw.length < t.length := template_length_lt hts hmem
    have hcode : part.code.length < raw.length := BacktickBody.code_length_lt hpart
    exact standalone_eq part.code offset' d'
  obtain ⟨d', hrun⟩ := exists_begin_eq offset d hreenters
  rw [standalone, Rule.read]
  show ((do begin t offset; Rule.whole.read : ReadM Expr) d).bind _ = _
  rw [hrun]
  rfl
termination_by t.length

-- ============================================================== calls

/-- A binding is read as by itself and leaves the desk as it was. -/
theorem binding_eq (t : Text) (d : Desk) : binding t d = some (Expr.parseBinding t, d) :=
  bind_at_rest (standalone_eq t 0 d) fun _ => rfl

/-- A chunk is read as by itself and leaves the desk as it was. -/
theorem chunk_eq (c : Chunk) (d : Desk) : chunk c d = some (Expr.ofChunk c, d) := by
  rw [chunk, Expr.ofChunk]
  by_cases hblank : Text.isBlank c.code = true
  · rw [if_pos hblank, if_pos hblank]
    rfl
  · rw [if_neg hblank, if_neg hblank]
    exact standalone_eq c.code c.offset d

/-- Chunks are read as by themselves and leave the desk as it was. -/
theorem mapM_chunk_eq (cs : List Chunk) (d : Desk) :
    cs.mapM chunk d = some (cs.mapM Expr.ofChunk, d) := by
  induction cs with
  | nil => rfl
  | cons c cs ih =>
      rw [List.mapM_cons, List.mapM_cons]
      refine bind_at_rest (chunk_eq c d) ?_
      intro e
      exact bind_at_rest ih fun es => rfl

/-- An interpolation is read as by itself and leaves the desk as it was. -/
theorem interpolation_eq (t : Text) (d : Desk) :
    interpolation t d = some (Expr.parseInterpolated t, d) := by
  rw [interpolation, Expr.parseInterpolated]
  cases Interpolated.split t with
  | none => rfl
  | some i => exact bind_at_rest (mapM_chunk_eq i.chunks d) fun es => rfl

end ReadM

namespace Call

/-- What a call gives, whoever it is made to. -/
def answer : Call → Except ExprError (Option Expr)
  | .binding t => (Expr.parseBinding t).map some
  | .interpolation t => Expr.parseInterpolated t

/-- A call is answered as by itself and leaves the desk as it was. -/
theorem run_eq (c : Call) (d : Desk) : c.run d = some (c.answer, d) := by
  cases c with
  | interpolation t => exact ReadM.interpolation_eq t d
  | binding t =>
      have hrun := ReadM.bind_at_rest (k := fun e => pure (some e)) (f := fun e => .ok (some e))
        (ReadM.binding_eq t d) fun e => rfl
      rw [run, hrun, answer]
      cases Expr.parseBinding t <;> rfl

/-- Calls of one reader leave its desk as it was, all of them. -/
theorem runAll_eq (cs : List Call) (d : Desk) : runAll cs d = some (cs.map answer, d) := by
  induction cs with
  | nil => rfl
  | cons c cs ih =>
      rw [runAll]
      show (c.run d).bind (fun r => (runAll cs r.2).bind _) = _
      rw [run_eq]
      show (runAll cs d).bind _ = _
      rw [ih]
      rfl

end Call

/-- A reader can be used again. From every desk, a call ends and leaves the
desk as it was, whether it succeeds or is refused, and gives what reading
the text gives; so in a row of calls each gives what it gives to a fresh
reader. A backtick literal is passed in the same way: whatever its
substitutions are, reading goes on at the token behind it. -/
theorem reader_reusable (d : Desk) :
    (∀ t, ReadM.binding t d = some (Expr.parseBinding t, d))
      ∧ (∀ t, ReadM.interpolation t d = some (Expr.parseInterpolated t, d))
      ∧ (∀ calls : List Call, ∃ outcomes, Call.runAll calls d = some (outcomes, d)
          ∧ List.Forall₂ (fun c o => c.run Desk.fresh = some (o, Desk.fresh)) calls outcomes)
      ∧ ∀ raw, d.current.kind = some (.template raw) →
          ReadM.primary d = some (Expr.readBody (d.place + 1) raw, { d with next := d.next + 1 }) := by
  refine ⟨fun t => ReadM.binding_eq t d, fun t => ReadM.interpolation_eq t d, ?_, ?_⟩
  · intro calls
    refine ⟨calls.map Call.answer, Call.runAll_eq calls d, ?_⟩
    rw [List.forall₂_map_right_iff, List.forall₂_same]
    intro c _
    exact c.run_eq Desk.fresh
  · intro raw hraw
    have hstep : d.step = { d with next := d.next + 1 } := by
      rw [Desk.step, hraw]
      rfl
    have hreenters : ReadM.Reenters raw := fun part _ => ReadM.standalone_eq part.code
    rw [ReadM.primary, Rule.read, ReadM.bind_of_ok (ReadM.current_run d)]
    simp only [hraw]
    rw [ReadM.bind_of_ok (ReadM.advance_run d)]
    show (Rule.template raw (d.step.offset + d.current.position + 1)).read d.step = _
    rw [ReadM.template_eq hreenters, d.step_offset, hstep]
    rfl

/-- In the middle of a text, a literal with a substitution that is refused
leaves the reader at the token behind the literal. -/
theorem reader_reusable_nested :
    let d : Desk := ⟨[⟨some (.name ['f']), 0⟩, ⟨some (.template ['$', '{', '+', '}']), 1⟩,
      ⟨some (.mark .dot), 7⟩, ⟨none, 8⟩], 1, 5⟩
    ReadM.primary d
      = some (Expr.readBody 7 ['$', '{', '+', '}'], { d with next := 2 }) := by
  intro d
  exact (reader_reusable d).2.2.2 _ rfl

end KeyHarvest
