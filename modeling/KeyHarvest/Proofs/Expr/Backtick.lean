/-
Backtick literals, written and read back. A literal is written from its
chunks, with a backslash in front of each backslash, backtick and dollar
sign, and from its expressions, each printed without backticks between
`${` and `}` (`Expr.printTemplate`). Reading gives back the chunks and the
expressions (`parseBinding_printTemplate`).

The text is gone over three times on the way, and it is to mean the same
each time. The lexer looks for the backtick that ends the literal; it must
not find one in a chunk or in a print (`quotedBody_printed`). The cutting of
the body looks for `${`, and takes no dollar sign of a chunk for one
(`split_escape`). The search for the closing brace counts braces in the
print of an expression, where each has its partner (`split_printed`). What is
cut out is then read on its own, from where it stands.
-/
import KeyHarvest.Proofs.Expr.Braces
import KeyHarvest.Proofs.Expr.Origin
import KeyHarvest.Proofs.Expr.Tickless

namespace KeyHarvest

-- ============================================================= writing

/-- A substitution to be written: the chunk before it, the quotes that its
strings are written in, and its expression. -/
structure Splice where
  before : Text
  quote : Quote
  value : Expr

namespace BacktickBody

/-- A code point of a chunk as it is written. -/
def guard (c : CodePoint) : Text :=
  if c = '\\' ∨ c = '`' ∨ c = '$' then [CodePoint.ofChar '\\', c] else [c]

/-- A chunk as it is written. -/
def escape (s : Text) : Text := s.flatMap guard

end BacktickBody

/-- The code of a substitution. -/
def Splice.code (x : Splice) : Text := x.value.printTickless x.quote

/-- A substitution as it is written, behind its chunk. -/
def Splice.text (x : Splice) : Text :=
  BacktickBody.escape x.before
    ++ CodePoint.ofChar '$' :: CodePoint.ofChar '{' :: (x.code ++ [CodePoint.ofChar '}'])

/-- The body of a backtick literal as it is written. -/
def BacktickBody.printed (xs : List Splice) (last : Text) : Text :=
  xs.flatMap Splice.text ++ BacktickBody.escape last

/-- A backtick literal as it is written. -/
def Expr.printTemplate (xs : List Splice) (last : Text) : Text :=
  quotation '`' (BacktickBody.printed xs last)

-- =============================================================== chunks

namespace BacktickBody

/-- A guarded code point stands for itself. -/
theorem decode_guard (c : CodePoint) (t : Text) :
    Escape.decode (guard c ++ t) = c :: Escape.decode t := by
  unfold guard
  split
  · next hguarded =>
      have hother : c ∉ Text.ofString "ntrbfv0u" := by
        rcases hguarded with rfl | rfl | rfl <;> decide
      obtain ⟨hu, hmeaning⟩ := Escape.meaning_other hother
      exact (Escape.decode_escaped hu t).trans (by rw [hmeaning])
  · next hplain => exact Escape.decode_plain (fun hc => hplain (.inl hc)) t

/-- Escaping is undone by decoding. -/
theorem decode_escape (s : Text) : Escape.decode (escape s) = s := by
  induction s with
  | nil => rw [escape, List.flatMap_nil, Escape.decode]
  | cons c s ih => rw [escape, List.flatMap_cons, decode_guard, ← escape, ih]

/-- A guarded code point may stand in a literal. -/
theorem quotedBody_guard (c : CodePoint) : QuotedBody '`' (guard c) := by
  unfold guard
  split
  · exact .escaped c .nil
  · next hplain =>
      rw [not_or, not_or] at hplain
      exact .plain hplain.2.1 hplain.1 .nil

/-- An escaped text may stand in a literal. -/
theorem quotedBody_escape (s : Text) : QuotedBody '`' (escape s) := by
  induction s with
  | nil => exact .nil
  | cons c s ih => exact (quotedBody_guard c).append ih

-- ============================================================== cutting

theorem push_nil (b : BacktickBody) : push [] b = b := by
  obtain ⟨parts, last⟩ := b
  cases parts with
  | nil => cases last <;> rfl
  | cons p ps => rfl

/-- Two texts in front of a body are one. -/
theorem push_push (v w : Text) (b : BacktickBody) : push v (push w b) = push (v ++ w) b := by
  obtain ⟨parts, last⟩ := b
  cases parts with
  | nil =>
      cases last with
      | error place => rfl
      | ok s => simp [push, Except.map]
  | cons p ps => simp [push]

/-- A guarded code point is raw text. -/
theorem split_guard (start : Nat) (c : CodePoint) (t : Text) :
    split start (guard c ++ t) = push (guard c) (split (start + (guard c).length) t) := by
  unfold guard
  split
  · show split start (CodePoint.ofChar '\\' :: c :: t) = _
    rw [split, if_pos rfl]
    rfl
  · next hplain =>
      rw [not_or, not_or] at hplain
      show split start (c :: t) = _
      rw [split, if_neg hplain.1, if_neg fun h => hplain.2.2 h.1]
      rfl

/-- A written chunk is raw text, whatever follows. -/
theorem split_escape (start : Nat) (s t : Text) :
    split start (escape s ++ t) = push (escape s) (split (start + (escape s).length) t) := by
  induction s generalizing start with
  | nil => exact (push_nil _).symm
  | cons c s ih =>
      rw [escape, List.flatMap_cons, List.append_assoc, split_guard, ← escape, ih, push_push,
        List.length_append, Nat.add_assoc]

/-- Code is cut out where the search for its brace ends. -/
theorem split_code {code t : Text} (start : Nat)
    (h : codeLength? (code ++ CodePoint.ofChar '}' :: t) = some code.length) :
    split start
        (CodePoint.ofChar '$' :: CodePoint.ofChar '{' :: (code ++ CodePoint.ofChar '}' :: t))
      = cons ⟨[], code, start + 2⟩ (split (start + code.length + 3) t) := by
  have htail : (code ++ CodePoint.ofChar '}' :: t).drop (code.length + 1) = t := by
    rw [← List.drop_drop, List.drop_left]
    rfl
  rw [split, if_neg (by decide), if_pos ⟨rfl, rfl⟩, List.drop_succ_cons, List.drop_zero, h]
  show cons ⟨[], (code ++ _).take code.length, start + 2⟩
    (split (start + code.length + 3) ((code ++ _).drop (code.length + 1))) = _
  rw [List.take_left, htail]

variable {xs : List Splice}

/-- A written body is cut at its substitutions, into the chunks as they are
written and into code that is read as the expressions. -/
theorem split_printed (h : ∀ x ∈ xs, x.value.Substitutable) (last : Text) (start : Nat) :
    List.Forall₂
        (fun p x => p.before = escape x.before ∧ ∀ q, Expr.parseAt q p.code = .ok x.value)
        (split start (printed xs last)).parts xs
      ∧ (split start (printed xs last)).last = .ok (escape last) := by
  induction xs generalizing start with
  | nil =>
      have hlast : split start (printed [] last) = ⟨[], .ok (escape last)⟩ := by
        have hescape := split_escape start last []
        rw [List.append_nil, split, push] at hescape
        rw [printed, List.flatMap_nil, List.nil_append, hescape]
        show (⟨[], .ok (escape last ++ [])⟩ : BacktickBody) = _
        rw [List.append_nil]
      rw [hlast]
      exact ⟨.nil, rfl⟩
  | cons x xs ih =>
      obtain ⟨hx, hxs⟩ := List.forall_mem_cons.1 h
      have hread : ∀ q, Expr.parseAt q x.code = .ok x.value := Expr.parseAt_printTickless hx
      have hcode := codeLength?_of_parseAt (hread 0) (Expr.printTickless_body hx).1
        (printed xs last)
      have hprint : printed (x :: xs) last
          = escape x.before ++ CodePoint.ofChar '$' :: CodePoint.ofChar '{'
            :: (x.code ++ CodePoint.ofChar '}' :: printed xs last) := by
        simp [printed, Splice.text]
      rw [hprint, split_escape, split_code _ hcode]
      obtain ⟨hparts, hlast⟩ := ih hxs (start + (escape x.before).length + x.code.length + 3)
      exact ⟨.cons ⟨List.append_nil _, hread⟩ hparts, hlast⟩

/-- The first backtick behind a written body that nothing escapes is the
one that ends the literal. -/
theorem quotedBody_printed (h : ∀ x ∈ xs, x.value.Substitutable) (last : Text) :
    QuotedBody '`' (printed xs last) := by
  induction xs with
  | nil => exact quotedBody_escape last
  | cons x xs ih =>
      obtain ⟨hx, hxs⟩ := List.forall_mem_cons.1 h
      have htext : QuotedBody '`' x.text :=
        (quotedBody_escape x.before).append <| .plain (by decide) (by decide) <|
          .plain (by decide) (by decide) <|
            (Expr.printTickless_body hx).2.append (.plain (by decide) (by decide) .nil)
      rw [printed, List.flatMap_cons, List.append_assoc]
      exact htext.append (ih hxs)

end BacktickBody

-- ============================================================== reading

/-- A primary expression at which nothing goes on is an expression. -/
theorem Grammar.reads_pipe_of_primary {stop : Nat} {ts r : List Item} {e : Expr}
    (h : Reads (primary stop ts) e r) (hr : joint r = none) : Reads (pipe stop ts) e r := by
  have hne : ∀ s, joint r ≠ some s := fun s => by rw [hr]; nofun
  have haccess : Reads (access stop ts) e r :=
    access_iff.2 ⟨e, r, h, accessTail_iff.2 (.inl ⟨hne _, rfl, rfl⟩)⟩
  have hunary : Reads (unary stop ts) e r :=
    unary_iff.2 (.inr ⟨fun _ _ _ hts => prefixed_eq_none_of_access (hts ▸ haccess), haccess⟩)
  have hbinary : ∀ n, Reads (binary stop n ts) e r := by
    intro n
    induction n with
    | zero =>
        rw [binary_zero]
        exact power_iff.2 (.inl ⟨hunary, hne _⟩)
    | succ n ih =>
        exact binary_succ_iff.2 ⟨e, r, ih, binaryTail_iff.2 (.inl ⟨hne _, rfl, rfl⟩)⟩
  have hcond : Reads (cond stop ts) e r := cond_iff.2 (.inl ⟨hbinary _, hne _⟩)
  exact pipe_iff.2 ⟨e, r, hcond, pipeTail_iff.2 (.inl ⟨hne _, rfl, rfl⟩)⟩

namespace Expr

open Grammar BacktickBody

variable {xs : List Splice}

/-- A written body is read as its chunks and expressions. -/
theorem readBody_printed (h : ∀ x ∈ xs, x.value.Substitutable) (last : Text) (start : Nat) :
    readBody start (printed xs last)
      = .ok (.template (xs.map Splice.before ++ [last]) (xs.map Splice.value)) := by
  obtain ⟨hparts, hlast⟩ := split_printed h last 0
  have hitems : (split 0 (printed xs last)).parts.mapM
      (fun part => parseAt (start + part.offset) part.code) = .ok (xs.map Splice.value) := by
    refine mapM_eq_ok_of_forall₂ (List.forall₂_map_right_iff.2 ?_)
    exact hparts.imp fun p x hx => hx.2 (start + p.offset)
  have hchunks : (split 0 (printed xs last)).parts.map (Escape.decode ·.before)
      = xs.map Splice.before := by
    rw [← List.forall₂_eq_eq_eq, List.forall₂_map_left_iff, List.forall₂_map_right_iff]
    exact hparts.imp fun p x hx => by rw [hx.1, decode_escape]
  rw [readBody, hitems]
  show ofBody start (split 0 (printed xs last)) (xs.map Splice.value) = _
  rw [ofBody, hlast]
  show Except.ok (Expr.template (_ ++ [Escape.decode (escape last)]) _) = _
  rw [hchunks, decode_escape]

/-- A backtick literal that is written from chunks and expressions is read
as these chunks and these expressions. -/
theorem parseBinding_printTemplate (h : ∀ x ∈ xs, x.value.Substitutable) (last : Text) :
    parseBinding (printTemplate xs last)
      = .ok (.sourced (.template (xs.map Splice.before ++ [last]) (xs.map Splice.value))
          (printTemplate xs last)) := by
  have hbegins : (TokenKind.template (printed xs last)).Begins (printTemplate xs last)
      (printTemplate xs last) := ⟨quotedBody_printed h last, rfl, List.prefix_rfl⟩
  have htokens : tokenize 0 (printTemplate xs last) = .ok [⟨.template (printed xs last), 0⟩] := by
    rw [tokenize, Lexeme.tokens_of_begins hbegins, List.drop_length, Lexeme.split]
    rfl
  have hread : parseAt 0 (printTemplate xs last)
      = .ok (.template (xs.map Splice.before ++ [last]) (xs.map Splice.value)) := by
    rw [parseAt_eq, htokens]
    show whole _ [toItem ⟨.template (printed xs last), 0⟩] = _
    refine whole_eq_ok.2 (.inr (reads_pipe_of_primary (primary_iff.2 ?_) rfl))
    exact ⟨_, _, [], rfl, .inr (.inl ⟨_, rfl, readBody_printed h last 1, rfl⟩)⟩
  rw [parseBinding, hread]
  rfl

/-- A chunk of the three escaped code points, a map in a map whose string
holds braces, a backtick and a quote, a substitution of nothing, and a last
chunk that looks like a substitution. -/
theorem parseBinding_printTemplate_nested :
    let value : Expr :=
      .map [⟨['k'], true⟩] [.map [⟨['m'], false⟩] [.literal (.text ['}', '`', '\'', '{'])]]
    let xs : List Splice := [⟨['$', '`', '\\'], .single, value⟩, ⟨[], .double, .empty⟩]
    let last : Text := ['$', '{', 'x', '}']
    let t : Text :=
      "`\\$\\`\\\\$\x7b\x7b 'k' : \x7b m : '\x7d\\u0060\\'\x7b' \x7d \x7d\x7d$\x7b\x7d\\$\x7bx\x7d`"
    (∀ x ∈ xs, x.value.Substitutable) ∧ printTemplate xs last = t
      ∧ parseBinding t
        = .ok (.sourced (.template [['$', '`', '\\'], [], last] [value, .empty]) t) := by
  intro value xs last t
  have hinner : ∀ key : MapKey, key.Printable → ∀ e : Expr, e.Printable →
      (Expr.map [key] [e]).Printable := fun key hkey e he =>
    .map rfl (List.forall_mem_singleton.2 hkey) (List.forall_mem_singleton.2 he)
  have hvalue : value.Printable :=
    hinner _ (.inl rfl) _ (hinner _ (.inr rfl) _ (.literal trivial))
  have hxs : ∀ x ∈ xs, x.value.Substitutable :=
    List.forall_mem_cons.2 ⟨.inr hvalue, List.forall_mem_singleton.2 (.inl rfl)⟩
  have ht : printTemplate xs last = t := by cbv
  exact ⟨hxs, ht, ht ▸ parseBinding_printTemplate hxs last⟩

end Expr

end KeyHarvest
