/-
Code at its place. Where a text starts matters to nothing but the positions
of its faults, also when it is read by an object that keeps the position on
its desk and adds it in one place after the other (`parseAt_add` and
`standalone_eq`).

So an interpolated text is read chunk by chunk, each chunk by itself: the
expressions are those of the chunks, and the refusal is that of the first
chunk that is refused, moved to where the chunk stands (`InChunks`). Blank
code has no place of its own to point to and is refused where it begins.
-/
import KeyHarvest.Proofs.Expr.Origin
import KeyHarvest.Proofs.Expr.Session

namespace KeyHarvest

namespace Expr

-- ============================================================= chunks

/-- Code by itself is an expression. -/
def ReadsAlone (c : Chunk) (e : Expr) : Prop :=
  Text.isBlank c.code = false ∧ parseAt 0 c.code = .ok e

/-- Code is refused for being blank, where it begins, or by itself, and then
the fault is moved to where the code stands. -/
inductive RefusedAt (c : Chunk) : ExprError → Prop where
  | blank (h : Text.isBlank c.code = true) : RefusedAt c (.malformed .blankInterpolation c.offset)
  | alone {e : ExprError} (hblank : Text.isBlank c.code = false)
      (h : parseAt 0 c.code = .error e) : RefusedAt c (e.move c.offset)

/-- What the interpolations of a text come to when every chunk of code is
read by itself: nothing, the expressions of all chunks, or the refusal of
the first chunk that is refused. -/
inductive InChunks (t : Text) : Except ExprError (Option Expr) → Prop where
  | uncut (h : Interpolated.split t = none) : InChunks t (.ok none)
  | read {i : Interpolated} {es : List Expr} (hi : Interpolated.split t = some i)
      (h : List.Forall₂ ReadsAlone i.chunks es) :
      InChunks t (.ok (some (.sourced (.interpolation i.strings es) t)))
  | refused {i : Interpolated} {e : ExprError} (hi : Interpolated.split t = some i)
      (h : Reaches (fun c => ∃ x, ReadsAlone c x) (RefusedAt · e) i.chunks) :
      InChunks t (.error e)

/-- A chunk is read like its code by itself. -/
theorem ofChunk_eq (c : Chunk) :
    ofChunk c = if Text.isBlank c.code then .error (.malformed .blankInterpolation c.offset)
      else (parseAt 0 c.code).mapError (ExprError.move c.offset) := by
  rw [ofChunk, ← parseAt_add, Nat.zero_add]

/-- A chunk is read as an expression by itself. -/
theorem ofChunk_eq_ok {c : Chunk} {e : Expr} : ofChunk c = .ok e ↔ ReadsAlone c e := by
  rw [ofChunk_eq, ReadsAlone]
  cases hblank : Text.isBlank c.code with
  | true => simp
  | false => cases parseAt 0 c.code <;> simp [Except.mapError]

/-- A chunk is refused by itself, at its own place. -/
theorem ofChunk_eq_error {c : Chunk} {e : ExprError} : ofChunk c = .error e ↔ RefusedAt c e := by
  rw [ofChunk_eq]
  cases hblank : Text.isBlank c.code with
  | true =>
      constructor
      · intro h
        cases h
        exact .blank hblank
      · intro h
        cases h with
        | blank => rfl
        | alone hfalse => rw [hblank] at hfalse; cases hfalse
  | false =>
      constructor
      · intro h
        cases hcode : parseAt 0 c.code with
        | ok x => rw [hcode] at h; cases h
        | error err =>
            rw [hcode] at h
            cases h
            exact .alone hblank hcode
      · intro h
        cases h with
        | blank htrue => rw [hblank] at htrue; cases htrue
        | alone _ hcode =>
            rw [hcode]
            rfl

/-- Chunks are read when every one of them is. -/
theorem mapM_ofChunk_eq_ok {cs : List Chunk} {es : List Expr} :
    cs.mapM ofChunk = .ok es ↔ List.Forall₂ ReadsAlone cs es := by
  constructor
  · intro h
    exact (forall₂_of_mapM_eq_ok h).imp fun _ _ hc => ofChunk_eq_ok.1 hc
  · intro h
    exact mapM_eq_ok_of_forall₂ (h.imp fun _ _ hc => ofChunk_eq_ok.2 hc)

/-- The refusal of chunks is that of the first that is refused. -/
theorem mapM_ofChunk_eq_error {cs : List Chunk} {e : ExprError} :
    cs.mapM ofChunk = .error e ↔ Reaches (fun c => ∃ x, ReadsAlone c x) (RefusedAt · e) cs := by
  rw [← refusal?_eq_some, refusal?_mapM, findSome?_eq_some_iff_reaches]
  refine reaches_congr (fun c _ => ?_) fun c _ => ?_
  · simp only [refusal?_eq_none, ofChunk_eq_ok]
  · rw [refusal?_eq_some, ofChunk_eq_error]

/-- An interpolated text is read chunk by chunk. -/
theorem parseInterpolated_eq_iff {t : Text} {outcome : Except ExprError (Option Expr)} :
    parseInterpolated t = outcome ↔ InChunks t outcome := by
  constructor
  · -- chunks are read in order, and the first that cannot be read decides
    rintro rfl
    unfold parseInterpolated
    cases hsplit : Interpolated.split t with
    | none => exact .uncut hsplit
    | some i =>
        cases hread : i.chunks.mapM ofChunk with
        | ok es =>
            simp only [hread]
            exact .read hsplit (mapM_ofChunk_eq_ok.1 hread)
        | error e =>
            simp only [hread]
            exact .refused hsplit (mapM_ofChunk_eq_error.1 hread)
  · intro h
    unfold parseInterpolated
    cases h with
    | uncut hsplit => rw [hsplit]
    | read hsplit hes =>
        rw [hsplit]
        simp only [mapM_ofChunk_eq_ok.2 hes]
        rfl
    | refused hsplit he =>
        rw [hsplit]
        simp only [mapM_ofChunk_eq_error.2 he]
        rfl

end Expr

-- ============================================================ reading

/-- The place of a text is added to the positions of its faults and changes
nothing else. Read from any desk and at any place, a text gives the
expression that it gives at the start, or the same refusal as far to the
right, however deep inside it the fault is; so an interpolated text is read
chunk by chunk, each by itself. -/
theorem place_only_moves (d : Desk) :
    (∀ t place, ReadM.standalone t 0 d = some (Expr.parseAt 0 t, d)
        ∧ ReadM.standalone t place d
          = some ((Expr.parseAt 0 t).mapError (ExprError.move place), d))
      ∧ ∀ t outcome, ReadM.interpolation t d = some (outcome, d) ↔ Expr.InChunks t outcome := by
  constructor
  · intro t place
    refine ⟨ReadM.standalone_eq t 0 d, ?_⟩
    rw [ReadM.standalone_eq, ← Expr.parseAt_add, Nat.zero_add]
  · intro t outcome
    rw [ReadM.interpolation_eq, ← Expr.parseInterpolated_eq_iff]
    simp

/-- A fault in a substitution of the second chunk: the places of the chunk,
of the body and of the code in it add up. -/
theorem place_only_moves_nested :
    let t : Text :=
      ['{', '{', 'b', '}', '}', '{', '{', '`', '$', '{', 'c', ' ', 'd', '}', '`', '}', '}']
    ReadM.interpolation t Desk.fresh
      = some (.error (.malformed (.unexpectedToken ['d']) 12), Desk.fresh) := by
  intro t
  let literal : Text := ['`', '$', '{', 'c', ' ', 'd', '}', '`']
  have hsplit : Interpolated.split t = some ⟨[], [(⟨['b'], 2⟩, []), (⟨literal, 7⟩, [])]⟩ := by
    decide +kernel
  have hfirst : Expr.parseAt 0 ['b'] = .ok (.property .context ['b']) := by
    have htokens : tokenize 0 ['b'] = .ok [⟨.name ['b'], 0⟩] := by decide +kernel
    rw [Expr.parseAt_eq, htokens]
    cbv
  have hcode : Expr.parseAt (0 + 1 + 2) ['c', ' ', 'd']
      = .error (.malformed (.unexpectedToken ['d']) 5) := by
    have htokens : tokenize (0 + 1 + 2) ['c', ' ', 'd']
        = .ok [⟨.name ['c'], 3⟩, ⟨.name ['d'], 5⟩] := by
      decide +kernel
    rw [Expr.parseAt_eq, htokens]
    cbv
  have hbody : Expr.readBody (0 + 1) ['$', '{', 'c', ' ', 'd', '}']
      = .error (.malformed (.unexpectedToken ['d']) 5) := by
    have hparts : BacktickBody.split 0 ['$', '{', 'c', ' ', 'd', '}']
        = ⟨[⟨[], ['c', ' ', 'd'], 2⟩], .ok []⟩ := by
      cbv
    rw [Expr.readBody, hparts, List.mapM_cons, hcode]
    rfl
  have hliteral : Expr.parseAt 0 literal = .error (.malformed (.unexpectedToken ['d']) 5) := by
    have htokens : tokenize 0 literal = .ok [⟨.template ['$', '{', 'c', ' ', 'd', '}'], 0⟩] := by
      decide +kernel
    rw [Expr.parseAt_eq, htokens]
    simp only [bind, Except.bind, List.map_cons, List.map_nil, Expr.toItem, TokenKind.map,
      Expr.toBacktick, hbody]
    cbv
  have hread : Expr.ReadsAlone ⟨['b'], 2⟩ (.property .context ['b']) := ⟨rfl, hfirst⟩
  have hrefused : Expr.RefusedAt ⟨literal, 7⟩ (.malformed (.unexpectedToken ['d']) 12) :=
    Expr.RefusedAt.alone (c := ⟨literal, 7⟩) rfl hliteral
  refine ((place_only_moves Desk.fresh).2 t _).2 (.refused hsplit ?_)
  exact ⟨[⟨['b'], 2⟩], ⟨literal, 7⟩, [], rfl, List.forall_mem_singleton.2 ⟨_, hread⟩, hrefused⟩

end KeyHarvest
