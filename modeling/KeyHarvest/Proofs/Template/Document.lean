/-
Templates in bytes. The markup of a template is read from the bytes of its
masked text, and what is known of a node afterwards are numbers: the bytes
where it begins and ends, the line feeds before it, and the bytes between
the last of these and the node (`Extent`). Its text and its place are read
with these numbers from other bytes, those of the template as it is
written.

This is the same as reading at offsets in code points. Masking replaces a
code point only by one of as many bytes, and neither makes nor takes away
a line feed (`map_trait_mask`). So what is counted in the masked text is
true of the text, and a node begins and ends between code points of both.
-/
import KeyHarvest.Proofs.Markup.Coverage
import KeyHarvest.Proofs.Template.Shift
import KeyHarvest.Proofs.Text.Encoding

namespace KeyHarvest

-- ============================================================ masking

/-- What masking keeps of a code point: the number of its bytes, and
whether it is a line feed. -/
def Mask.trait (c : CodePoint) : Nat × Bool := (Utf8.size c, c = '\n')

theorem Mask.map_trait_blankOut (ss : List (Nat × Nat)) (offset : Nat) (t : Text) :
    (blankOut ss offset t).map trait = t.map trait := by
  induction t generalizing offset with
  | nil => rfl
  | cons c cs ih =>
      have hc : trait (if (c = '<' ∨ c = '>') ∧ covered ss offset then ' ' else c) = trait c := by
        split
        · next hmasked => rcases hmasked.1 with rfl | rfl <;> rfl
        · rfl
      rw [blankOut, List.map_cons, List.map_cons, ih, hc]

theorem map_trait_mask (t : Text) : (mask t).map Mask.trait = t.map Mask.trait :=
  Mask.map_trait_blankOut _ 0 t

theorem Text.Scalar.mask {t : Text} (h : t.Scalar) : (mask t).Scalar := by
  intro c hc
  obtain ⟨i, hi⟩ := List.mem_iff_getElem?.1 hc
  by_cases hsame : (KeyHarvest.mask t)[i]? = t[i]?
  · rw [hsame] at hi
    exact h c (List.mem_of_getElem? hi)
  · have hspace := (getElem?_mask t i).2 ((getElem?_mask t i).1.1 hsame)
    rw [hspace] at hi
    obtain rfl := Option.some.inj hi
    exact CodePoint.isSurrogate_ofChar ' '

-- ============================================================== traits

namespace Mask

variable {t u : Text}

theorem length_eq_of_trait (h : t.map trait = u.map trait) : Utf8.length t = Utf8.length u := by
  have hlength : ∀ t : Text, Utf8.length t = ((t.map trait).map Prod.fst).sum := fun t => by
    rw [List.map_map]
    rfl
  rw [hlength, hlength, h]

theorem lineFeeds_eq_of_trait (h : t.map trait = u.map trait) : lineFeeds t = lineFeeds u := by
  have hcount : ∀ t : Text, lineFeeds t = (t.map trait).countP Prod.snd := fun t => by
    rw [List.countP_map, lineFeeds, List.count_eq_countP]
    rfl
  rw [hcount, hcount, h]

/-- Texts of the same traits have last lines of the same traits. -/
theorem trait_afterLast (h : t.map trait = u.map trait) :
    (Text.afterLast '\n' t).map trait = (Text.afterLast '\n' u).map trait := by
  have hlast : ∀ t : Text, (Text.afterLast '\n' t).map trait
      = ((t.map trait).reverse.takeWhile (!Prod.snd ·)).reverse := fun t => by
    rw [← List.map_reverse, List.takeWhile_map, ← List.map_reverse, Text.afterLast]
    congr 3
    funext c
    simp [trait, Function.comp]
  rw [hlast, hlast, h]

theorem trait_take (t : Text) (n : Nat) : ((mask t).take n).map trait = (t.take n).map trait := by
  rw [List.map_take, map_trait_mask, List.map_take]

end Mask

-- ============================================================== places

/-- The column of a place counts the code points behind the last line
feed. -/
theorem Place.column_foldl (t : Text) :
    (t.foldl next ⟨1, 1⟩).column = (Text.afterLast '\n' t).length + 1 := by
  induction t using List.reverseRecOn with
  | nil => rfl
  | append_singleton t c ih =>
      unfold Text.afterLast at ih ⊢
      rw [List.foldl_append, List.reverse_append, List.reverse_singleton, List.singleton_append]
      show (next (t.foldl next ⟨1, 1⟩) c).column = _
      by_cases hc : c = '\n'
      · subst hc
        rfl
      · rw [next, if_neg hc, List.takeWhile_cons_of_pos (by simpa using hc)]
        dsimp only
        rw [ih, List.reverse_cons, List.length_append, List.length_singleton]

/-- A text ends with its last line. -/
theorem Text.exists_lines (t : Text) : ∃ lines, t = lines ++ Text.afterLast '\n' t := by
  refine ⟨(t.reverse.dropWhile (· ≠ CodePoint.ofChar '\n')).reverse, ?_⟩
  rw [Text.afterLast, ← List.reverse_append, List.takeWhile_append_dropWhile, List.reverse_reverse]

-- =========================================================== documents

namespace Template

/-- A template in bytes: those of its text, and those of its masked text,
from which the markup is read. -/
structure Document where
  bytes : List UInt8
  parsed : List UInt8

/-- Where a node is in the bytes that the markup is read from: where it
begins and ends, how many line feeds stand before it, and how many bytes
between the last of these and the node. -/
structure Extent where
  start : Nat
  stop : Nat
  row : Nat
  column : Nat

/-- The bytes from one place up to another. -/
def between (bs : List UInt8) (start stop : Nat) : List UInt8 := (bs.drop start).take (stop - start)

namespace Document

/-- The document of a text; a text with a surrogate has none. -/
def ofText? (t : Text) : Option Document := do
  let bytes ← Utf8.encode? t
  let parsed ← Utf8.encode? (mask t)
  return ⟨bytes, parsed⟩

/-- The extent of what begins and ends at two places of the bytes. -/
def extent (d : Document) (start stop : Nat) : Extent :=
  ⟨start, stop, (d.parsed.take start).count Utf8.lineFeed,
    (Utf8.lastLine (d.parsed.take start)).length⟩

/-- The extent of a node whose span in the masked text is known in code
points. -/
def extentOf (d : Document) (parsed : Text) (n : Markup.Node) : Extent :=
  d.extent (Utf8.length (parsed.take n.start)) (Utf8.length (parsed.take n.stop))

/-- The text at an extent. -/
def textAt (d : Document) (e : Extent) : Except Utf8.Fault Text :=
  Utf8.decode (between d.bytes e.start e.stop)

/-- The place of an extent: its row, and the number of code points that
are read in front of it in its line. -/
def placeAt (d : Document) (e : Extent) : Place :=
  ⟨e.row + 1, (Utf8.decodeLeniently (between d.bytes (e.start - e.column) e.start)).length + 1⟩

theorem ofText?_eq_some {t : Text} (h : t.Scalar) :
    ofText? t = some ⟨Utf8.encode t, Utf8.encode (mask t)⟩ := by
  rw [ofText?, Utf8.encode?_eq_some h, Utf8.encode?_eq_some h.mask]
  rfl

variable {t : Text}

/-- What is read at the extent of a node is the text of its span. -/
theorem textAt_extentOf (h : t.Scalar) (n : Markup.Node) :
    (Document.mk (Utf8.encode t) (Utf8.encode (mask t))).textAt
        ((Document.mk (Utf8.encode t) (Utf8.encode (mask t))).extentOf (mask t) n)
      = .ok (Text.slice t n.start n.stop) := by
  have hlength : ∀ i, Utf8.length ((mask t).take i) = Utf8.length (t.take i) := fun i =>
    Mask.length_eq_of_trait (Mask.trait_take t i)
  unfold textAt extentOf extent between
  dsimp only
  rw [hlength, hlength, Utf8.slice_encode, Utf8.decode_encode (h.slice _ _)]

/-- The bytes in front of an offset, as many as its line has up to there,
are those of the line. -/
theorem between_line (t : Text) (n : Nat) :
    between (Utf8.encode t)
        (Utf8.length (t.take n) - Utf8.length (Text.afterLast '\n' (t.take n)))
        (Utf8.length (t.take n))
      = Utf8.encode (Text.afterLast '\n' (t.take n)) := by
  obtain ⟨lines, hlines⟩ := Text.exists_lines (t.take n)
  have hbytes : Utf8.encode t = Utf8.encode lines
      ++ (Utf8.encode (Text.afterLast '\n' (t.take n)) ++ Utf8.encode (t.drop n)) := by
    rw [← Utf8.encode_append, ← Utf8.encode_append, ← List.append_assoc, ← hlines,
      List.take_append_drop]
  have hsum := congrArg Utf8.length hlines
  rw [Utf8.length_append] at hsum
  have hstart : Utf8.length (t.take n) - Utf8.length (Text.afterLast '\n' (t.take n))
      = (Utf8.encode lines).length := by
    rw [Utf8.length_encode, hsum, Nat.add_sub_cancel_right]
  have hcount : Utf8.length (t.take n) - (Utf8.encode lines).length
      = (Utf8.encode (Text.afterLast '\n' (t.take n))).length := by
    rw [Utf8.length_encode, Utf8.length_encode, hsum, Nat.add_sub_cancel_left]
  rw [between, hstart, hcount, hbytes, List.drop_left, List.take_left]

/-- What is counted in front of a node is its place. -/
theorem placeAt_extentOf (h : t.Scalar) (n : Markup.Node) :
    (Document.mk (Utf8.encode t) (Utf8.encode (mask t))).placeAt
        ((Document.mk (Utf8.encode t) (Utf8.encode (mask t))).extentOf (mask t) n)
      = Place.ofOffset t n.start := by
  have htrait := Mask.trait_take t n.start
  have hscalar : (Text.afterLast '\n' (t.take n.start)).Scalar := by
    obtain ⟨lines, hlines⟩ := Text.exists_lines (t.take n.start)
    exact (Text.scalar_append.1 (hlines ▸ h.take n.start)).2
  have hline : ((t.take n.start).foldl Place.next ⟨1, 1⟩).line
      = ((mask t).take n.start).count (CodePoint.ofChar '\n') + 1 := by
    rw [Place.line_foldl, ← Mask.lineFeeds_eq_of_trait htrait, Nat.add_comm]
    rfl
  unfold placeAt extentOf extent
  dsimp only
  rw [Utf8.take_encode, Utf8.count_encode, Utf8.lastLine_encode, Utf8.length_encode,
    Mask.length_eq_of_trait (Mask.trait_afterLast htrait), Mask.length_eq_of_trait htrait,
    between_line, Utf8.decodeLeniently_encode hscalar, ← Place.column_foldl, ← hline,
    Place.ofOffset]

end Document

/-- Masking keeps every offset. A masked text has as many code points as
the text, every beginning of it has as many bytes, and it differs from the
text exactly at the angle brackets in the code of interpolations and
between the parentheses of block parameters, which become spaces. So from
the bytes of the text, at the extent of any node of the masked text, the
code points of the text in the span of the node are read without a fault,
and the place is that of the first of them. -/
theorem mask_exact (t : Text) :
    (mask t).length = t.length
    ∧ (∀ n, Utf8.length ((mask t).take n) = Utf8.length (t.take n))
    ∧ (∀ i, ((mask t)[i]? ≠ t[i]? ↔ Mask.Masked t i)
        ∧ (Mask.Masked t i → (mask t)[i]? = some (CodePoint.ofChar ' ')))
    ∧ (t.Scalar → ∃ d, Document.ofText? t = some d ∧ ∀ (path : Text) (n : Markup.Node),
        d.textAt (d.extentOf (mask t) n) = .ok (Source.textOf ⟨t, path⟩ n)
        ∧ d.placeAt (d.extentOf (mask t) n) = Place.ofOffset t n.start) := by
  refine ⟨length_mask t, fun n => Mask.length_eq_of_trait (Mask.trait_take t n), getElem?_mask t,
    fun h => ⟨_, Document.ofText?_eq_some h, fun path n => ?_⟩⟩
  exact ⟨Document.textAt_extentOf h n, Document.placeAt_extentOf h n⟩

/-- A tag on the second line, behind a masked bracket and code points of
two and four bytes. -/
theorem mask_exact_tag :
    let t : Text := ("é{{ a < b }}\nö𝒳<p>" : String)
    ∃ d, Document.ofText? t = some d
      ∧ d.textAt (d.extentOf (mask t) (Markup.Node.leaf .startTag 15 18)) = .ok ("<p>" : String)
      ∧ d.placeAt (d.extentOf (mask t) (Markup.Node.leaf .startTag 15 18)) = ⟨2, 3⟩
      ∧ Mask.Masked t 6 := by
  intro t
  obtain ⟨-, -, hmasked, hbytes⟩ := mask_exact t
  obtain ⟨d, hd, hnodes⟩ := hbytes (by decide)
  obtain ⟨htext, hplace⟩ := hnodes [] (Markup.Node.leaf .startTag 15 18)
  exact ⟨d, hd, htext, hplace, (hmasked 6).1.1 (by decide +kernel)⟩

end Template

end KeyHarvest
