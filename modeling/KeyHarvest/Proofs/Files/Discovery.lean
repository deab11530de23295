/-
What a search for files finds. A file is found exactly when it is wanted
(`Wants`), which is said of its path alone: its suffix, the names of the
directories above it, and what the exclusions make of it and of each of
them. What is found stands in one row that `Precedes` describes, so it is
found once, and which row it is depends on nothing but the files that the
tree holds (`walk_congr`). The order of a listing is no part of that.

# The two sides

`Selection.walk` goes down with the path of the directory where it is, and
decides at each name whether to go on. `Wants` looks at a whole path from
one directory on. The two meet at one step of the way (`wants_cons`), and
`mem_walk` is an induction on the tree.

That no directory is entered which is excluded makes a difference only if
something below it is not excluded itself. Exclusions that reach all the
way down may as well be asked of the files alone (`walk_unpruned`).
-/
import KeyHarvest.Files.Discovery
import KeyHarvest.Proofs.Catalog.Sort
import KeyHarvest.Proofs.Files.Ignore
import KeyHarvest.Proofs.Files.Tree

namespace KeyHarvest

-- ============================================================== order

/-- The order in which files are found, by their paths from one directory:
the files of a directory by their names, then what is below its
sub-directories, by the names of those. -/
inductive Precedes : List Text → List Text → Prop where
  | files {a b : Text} (h : Text.Before a b) : Precedes [a] [b]
  | file {a b : Text} {q : List Text} (hq : q ≠ []) : Precedes [a] (b :: q)
  | directories {a b : Text} {p q : List Text} (h : Text.Before a b) (hp : p ≠ []) (hq : q ≠ []) :
      Precedes (a :: p) (b :: q)
  | inside {a : Text} {p q : List Text} (h : Precedes p q) : Precedes (a :: p) (a :: q)

namespace Precedes

variable {p q : List Text}

theorem not_nil_left : ¬ Precedes [] q := nofun

theorem not_nil_right : ¬ Precedes p [] := nofun

/-- A directory in front of two paths keeps their order. -/
theorem append (h : Precedes p q) (dir : List Text) : Precedes (dir ++ p) (dir ++ q) := by
  induction dir with
  | nil => exact h
  | cons a dir ih => exact .inside ih

/-- Of two paths only one comes before the other. -/
theorem asymm (h : Precedes p q) : ¬ Precedes q p := by
  induction h with
  | files h =>
      intro h'
      cases h' with
      | files h' => exact h.asymm h'
      | file hq => exact hq rfl
      | directories _ hp _ => exact hp rfl
      | inside h' => exact not_nil_left h'
  | file hq =>
      intro h'
      cases h' with
      | files _ => exact hq rfl
      | file hq' => exact hq' rfl
      | directories _ _ hq' => exact hq' rfl
      | inside h' => exact not_nil_right h'
  | directories h hp hq =>
      intro h'
      cases h' with
      | files _ => exact hp rfl
      | file _ => exact hq rfl
      | directories h' _ _ => exact h.asymm h'
      | inside _ => exact h.asymm h
  | inside h ih =>
      intro h'
      cases h' with
      | files _ => exact not_nil_left h
      | file _ => exact not_nil_right h
      | directories h' _ _ => exact h'.asymm h'
      | inside h' => exact ih h'

theorem irrefl : ¬ Precedes p p := fun h => h.asymm h

end Precedes

-- ============================================================= wanted

namespace Selection

/-- Which files are wanted below a directory, by their paths from there:
those of a suffix that is asked for, when no directory on the way has a
closed name and neither the file nor a directory on the way is excluded. -/
structure Wants (s : Selection) (dir path : List Text) : Prop where
  suffix : ∃ name, path.getLast? = some name ∧ suffixOf name ∈ s.extensions
  enterable : ∀ name ∈ path.dropLast, name ∉ closedNames
  included : s.excludes (Text.join "/" (dir ++ path)) = false
  above : ∀ part, part <+: path → part ≠ [] → part ≠ path →
    s.excludes (Text.join "/" (dir ++ part) ++ "/") = false

variable {s : Selection} {dir path : List Text} {name : Text}

theorem Wants.ne_nil (h : s.Wants dir path) : path ≠ [] := by
  rintro rfl
  obtain ⟨name, hname, -⟩ := h.suffix
  cases hname

/-- A file is admitted by its suffix and by the exclusions. -/
theorem admits_iff : s.admits dir name = true
    ↔ suffixOf name ∈ s.extensions ∧ s.excludes (Text.join "/" (dir ++ [name])) = false := by
  simp [admits, hasSuffix]

/-- A directory is entered by its name and by the exclusions. -/
theorem enters_iff : s.enters dir name = true
    ↔ name ∉ closedNames ∧ s.excludes (Text.join "/" (dir ++ [name]) ++ "/") = false := by
  simp [enters]

/-- A file of the directory itself. -/
theorem wants_singleton : s.Wants dir [name] ↔ s.admits dir name = true := by
  rw [admits_iff]
  constructor
  · intro h
    obtain ⟨last, hlast, hsuffix⟩ := h.suffix
    obtain rfl : name = last := Option.some_inj.1 hlast
    exact ⟨hsuffix, h.included⟩
  · rintro ⟨hsuffix, hincluded⟩
    refine ⟨⟨name, rfl, hsuffix⟩, by simp, hincluded, fun part hpart hne hproper => ?_⟩
    rcases List.prefix_cons_iff.1 hpart with rfl | ⟨rest, rfl, hrest⟩
    · exact absurd rfl hne
    · rw [List.prefix_nil.1 hrest] at hproper
      exact absurd rfl hproper

/-- A file below a sub-directory. -/
theorem wants_cons (hpath : path ≠ []) :
    s.Wants dir (name :: path) ↔ s.enters dir name = true ∧ s.Wants (dir ++ [name]) path := by
  obtain ⟨first, rest, rfl⟩ := List.exists_cons_of_ne_nil hpath
  have hassoc : ∀ part, dir ++ name :: part = dir ++ [name] ++ part := by simp
  rw [enters_iff]
  constructor
  · rintro ⟨hsuffix, henterable, hincluded, habove⟩
    rw [List.dropLast_cons_of_ne_nil hpath, List.forall_mem_cons] at henterable
    refine ⟨⟨henterable.1, ?_⟩, hsuffix, henterable.2, ?_, fun part hpart _ hproper => ?_⟩
    · exact habove [name] (List.prefix_cons_iff.2 (.inr ⟨[], rfl, List.nil_prefix⟩)) (by simp)
        (by simp)
    · rw [← hassoc]
      exact hincluded
    · rw [← hassoc]
      exact habove (name :: part) (List.prefix_cons_iff.2 (.inr ⟨part, rfl, hpart⟩)) (by simp)
        (by simpa using hproper)
  · rintro ⟨⟨hclosed, hname⟩, hsuffix, henterable, hincluded, habove⟩
    refine ⟨hsuffix, ?_, ?_, fun part hpart hne hproper => ?_⟩
    · rw [List.dropLast_cons_of_ne_nil hpath, List.forall_mem_cons]
      exact ⟨hclosed, henterable⟩
    · rw [hassoc]
      exact hincluded
    · rcases List.prefix_cons_iff.1 hpart with rfl | ⟨part, rfl, hrest⟩
      · exact absurd rfl hne
      · cases part with
        | nil => exact hname
        | cons a part =>
            rw [hassoc]
            exact habove (a :: part) hrest (by simp) (by simpa using hproper)

-- ============================================================== found

variable {es : List (Text × Tree)} {t u : Tree} {f : Found}

/-- The sub-directories that are entered, with what is found below each. -/
theorem walkEntries_eq (s : Selection) (dir : List Text) (es : List (Text × Tree)) :
    s.walkEntries dir es = (es.filter fun e => e.2.isDirectory && s.enters dir e.1).map
      fun e => (e.1, s.walk (dir ++ [e.1]) e.2) := by
  induction es with
  | nil => rw [walkEntries]; rfl
  | cons e es ih =>
      rw [walkEntries, ih, List.filter_cons]
      split
      · rfl
      · rfl

/-- The files of a directory itself are the admitted ones among its entries.
-/
theorem mem_ownFiles : f ∈ (es.mergeSort byName).filterMap (s.ownFile? dir)
    ↔ ∃ name bytes, (name, .file bytes) ∈ es ∧ s.admits dir name = true
        ∧ f = ⟨dir ++ [name], bytes⟩ := by
  simp only [List.mem_filterMap, List.mem_mergeSort]
  constructor
  · rintro ⟨⟨name, t⟩, he, hf⟩
    cases t with
    | directory _ => cases hf
    | file bytes =>
        rw [ownFile?, Option.ite_none_right_eq_some] at hf
        exact ⟨name, bytes, he, hf.1, (Option.some_inj.1 hf.2).symm⟩
  · rintro ⟨name, bytes, he, hadmits, rfl⟩
    exact ⟨(name, .file bytes), he, by rw [ownFile?, if_pos hadmits]⟩

/-- The files below a directory are those of the entered ones among its
entries. -/
theorem mem_below : f ∈ ((s.walkEntries dir es).mergeSort byName).flatMap Prod.snd
    ↔ ∃ name t, (name, t) ∈ es ∧ t.isDirectory = true ∧ s.enters dir name = true
        ∧ f ∈ s.walk (dir ++ [name]) t := by
  simp only [List.mem_flatMap, List.mem_mergeSort, walkEntries_eq, List.mem_map, List.mem_filter,
    Bool.and_eq_true]
  constructor
  · rintro ⟨_, ⟨⟨name, t⟩, ⟨he, hdirectory, henters⟩, rfl⟩, hf⟩
    exact ⟨name, t, he, hdirectory, henters, hf⟩
  · rintro ⟨name, t, he, hdirectory, henters, hf⟩
    exact ⟨_, ⟨(name, t), ⟨he, hdirectory, henters⟩, rfl⟩, hf⟩

/-- What is found is below the directory where the walk is. -/
theorem exists_path_of_mem_walk {s : Selection} {dir : List Text} {t : Tree} {f : Found}
    (h : f ∈ s.walk dir t) : ∃ path, path ≠ [] ∧ f.path = dir ++ path := by
  match t with
  | .file _ =>
      rw [walk] at h
      cases h
  | .directory es =>
      rw [walk, List.mem_append, mem_ownFiles, mem_below] at h
      rcases h with ⟨name, bytes, -, -, rfl⟩ | ⟨name, t, hmem, -, -, h⟩
      · exact ⟨[name], by simp, rfl⟩
      · obtain ⟨path, -, hpath⟩ := exists_path_of_mem_walk h
        exact ⟨name :: path, by simp, by rw [hpath]; simp⟩
termination_by t
decreasing_by
  have hsize := List.sizeOf_lt_of_mem hmem
  simp only [Tree.directory.sizeOf_spec, Prod.mk.sizeOf_spec] at hsize ⊢
  omega

/-- What is found are the files that are wanted. -/
theorem mem_walk (ht : t.Distinct) :
    f ∈ s.walk dir t
      ↔ ∃ path, f.path = dir ++ path ∧ t.HoldsFile path f.bytes ∧ path ≠ [] ∧ s.Wants dir path := by
  induction ht generalizing dir with
  | file bytes =>
      rw [walk]
      refine iff_of_false List.not_mem_nil ?_
      rintro ⟨path, -, hfile, hne, -⟩
      obtain ⟨name, path, rfl⟩ := List.exists_cons_of_ne_nil hne
      exact Tree.not_holdsFile_file hfile
  | @directory es names _ ih =>
      rw [walk, List.mem_append, mem_ownFiles, mem_below]
      constructor
      · rintro (⟨name, bytes, hmem, hadmits, rfl⟩ | ⟨name, t, hmem, hdirectory, henters, hf⟩)
        · exact ⟨[name], rfl, (Tree.holdsFile_cons names).2 ⟨_, hmem, rfl⟩, by simp,
            wants_singleton.2 hadmits⟩
        · obtain ⟨path, hpath, hfile, hne, hwants⟩ := (ih _ hmem).1 hf
          exact ⟨name :: path, by rw [hpath]; simp, (Tree.holdsFile_cons names).2 ⟨t, hmem, hfile⟩,
            by simp, (wants_cons hne).2 ⟨henters, hwants⟩⟩
      · rintro ⟨path, hpath, hfile, hne, hwants⟩
        obtain ⟨name, rest, rfl⟩ := List.exists_cons_of_ne_nil hne
        obtain ⟨t, hmem, hfile⟩ := (Tree.holdsFile_cons names).1 hfile
        cases rest with
        | nil =>
            rw [Tree.holdsFile_nil_iff.1 hfile] at hmem
            refine .inl ⟨name, f.bytes, hmem, wants_singleton.1 hwants, ?_⟩
            rw [← hpath]
        | cons next rest =>
            obtain ⟨henters, hwants⟩ := (wants_cons (by simp)).1 hwants
            have hdirectory : t.isDirectory = true := by
              cases t with
              | file _ => exact absurd hfile Tree.not_holdsFile_file
              | directory _ => rfl
            exact .inr ⟨name, t, hmem, hdirectory, henters,
              (ih _ hmem).2 ⟨next :: rest, by rw [hpath]; simp, hfile, by simp, hwants⟩⟩

/-- Distinct names that are sorted increase. -/
theorem pairwise_byName {α : Type} {es : List (Text × α)} (h : (es.map Prod.fst).Nodup) :
    (es.mergeSort byName).Pairwise fun d e => Text.Before d.1 e.1 := by
  have hle : (es.mergeSort byName).Pairwise fun d e => Text.le d.1 e.1 = true :=
    @List.pairwise_mergeSort _ byName (fun _ _ _ => Text.le_trans)
      (fun d e => Text.le_total d.1 e.1) es
  have hne : (es.mergeSort byName).Pairwise fun d e => d.1 ≠ e.1 :=
    List.pairwise_map.1 (((List.mergeSort_perm es byName).map Prod.fst).nodup_iff.2 h)
  refine (hle.and hne).imp ?_
  intro d e hde
  exact (Text.before_or_eq_of_le hde.1).resolve_right hde.2

/-- What is found stands in order. -/
theorem pairwise_walk (ht : t.Distinct) :
    (s.walk dir t).Pairwise fun f g => Precedes f.path g.path := by
  induction ht generalizing dir with
  | file bytes => rw [walk]; exact .nil
  | @directory es names _ ih =>
      have hentered : ((s.walkEntries dir es).map Prod.fst).Nodup := by
        rw [walkEntries_eq, List.map_map]
        exact names.sublist (List.filter_sublist.map _)
      rw [walk, List.pairwise_append]
      refine ⟨?_, ?_, ?_⟩
      · -- the files of the directory
        rw [List.pairwise_filterMap]
        refine (pairwise_byName names).imp_of_mem ?_
        rintro ⟨a, ta⟩ ⟨b, tb⟩ - - hab f hf g hg
        cases ta with
        | directory _ => cases hf
        | file _ =>
            cases tb with
            | directory _ => cases hg
            | file _ =>
                rw [ownFile?, Option.ite_none_right_eq_some] at hf hg
                rw [← Option.some_inj.1 hf.2, ← Option.some_inj.1 hg.2]
                exact (Precedes.files hab).append dir
      · -- what is below one sub-directory, and below two
        rw [List.pairwise_flatMap]
        constructor
        · rintro ⟨a, found⟩ ha
          rw [List.mem_mergeSort, walkEntries_eq, List.mem_map] at ha
          obtain ⟨e, he, heq⟩ := ha
          cases heq
          exact ih e (List.mem_filter.1 he).1
        · refine (pairwise_byName hentered).imp_of_mem ?_
          rintro ⟨a, found⟩ ⟨b, found'⟩ ha hb hab f hf g hg
          rw [List.mem_mergeSort, walkEntries_eq, List.mem_map] at ha hb
          obtain ⟨d, -, heq⟩ := ha
          obtain ⟨e, -, heq'⟩ := hb
          cases heq
          cases heq'
          obtain ⟨p, hp, hfp⟩ := exists_path_of_mem_walk hf
          obtain ⟨q, hq, hgq⟩ := exists_path_of_mem_walk hg
          rw [hfp, hgq, List.append_assoc, List.append_assoc]
          exact (Precedes.directories hab hp hq).append dir
      · -- a file of the directory, and one below a sub-directory
        intro f hf g hg
        obtain ⟨name, bytes, -, -, rfl⟩ := mem_ownFiles.1 hf
        obtain ⟨name', t, -, -, -, hg⟩ := mem_below.1 hg
        obtain ⟨q, hq, hgq⟩ := exists_path_of_mem_walk hg
        rw [hgq, List.append_assoc]
        exact (Precedes.file hq).append dir

/-- Rows in order that hold the same are equal. -/
theorem eq_of_mem_iff {l m : List Found} (hl : l.Pairwise fun f g => Precedes f.path g.path)
    (hm : m.Pairwise fun f g => Precedes f.path g.path) (h : ∀ f, f ∈ l ↔ f ∈ m) : l = m := by
  have hnodup : ∀ {l : List Found}, l.Pairwise (fun f g => Precedes f.path g.path) → l.Nodup := by
    intro l hl
    refine hl.imp ?_
    rintro f g hfg rfl
    exact hfg.irrefl
  refine ((List.perm_ext_iff_of_nodup (hnodup hl) (hnodup hm)).2 h).eq_of_pairwise ?_ hl hm
  intro f g _ _ hfg hgf
  exact absurd hgf hfg.asymm

/-- What is found depends on nothing but the files of the tree. -/
theorem walk_congr (ht : t.Distinct) (hu : u.Distinct)
    (h : ∀ path bytes, t.HoldsFile path bytes ↔ u.HoldsFile path bytes) :
    s.walk dir t = s.walk dir u := by
  refine eq_of_mem_iff (pairwise_walk ht) (pairwise_walk hu) fun f => ?_
  rw [mem_walk ht, mem_walk hu]
  simp only [h]

-- ============================================================ pruning

/-- The same files, none of them excluded. -/
def unpruned (s : Selection) : Selection := { s with excludes := fun _ => false }

/-- Exclusions that take all the files of a tree with the directories that
they are below. -/
def ClosedDownwards (excludes : Text → Bool) (t : Tree) : Prop :=
  ∀ part rest bytes, part ≠ [] → rest ≠ [] → t.HoldsFile (part ++ rest) bytes →
    excludes (Text.join "/" part ++ "/") = true → excludes (Text.join "/" (part ++ rest)) = true

/-- With exclusions that reach all the way down, a file is wanted when it
is not excluded itself. -/
theorem wants_iff_unpruned (h : ClosedDownwards s.excludes t) {bytes : List UInt8}
    (hfile : t.HoldsFile path bytes) :
    s.Wants [] path ↔ s.unpruned.Wants [] path ∧ s.excludes (Text.join "/" path) = false := by
  constructor
  · intro hwants
    exact ⟨⟨hwants.suffix, hwants.enterable, rfl, fun _ _ _ _ => rfl⟩, hwants.included⟩
  · rintro ⟨hwants, hincluded⟩
    refine ⟨hwants.suffix, hwants.enterable, hincluded, ?_⟩
    rintro part ⟨rest, rfl⟩ hpart hproper
    have hrest : rest ≠ [] := by
      rintro rfl
      exact hproper (List.append_nil part).symm
    refine Bool.eq_false_iff.2 fun hexcluded => ?_
    have hbelow := h part rest bytes hpart hrest hfile hexcluded
    rw [hincluded] at hbelow
    cases hbelow

/-- Where an excluded directory excludes what is below it, not entering it
leaves out nothing else. -/
theorem walk_unpruned (ht : t.Distinct) (h : ClosedDownwards s.excludes t) :
    s.walk [] t
      = (s.unpruned.walk [] t).filter fun f => !s.excludes (Text.join "/" f.path) := by
  refine eq_of_mem_iff (pairwise_walk ht) ((pairwise_walk ht).filter _) fun f => ?_
  rw [List.mem_filter, mem_walk ht, mem_walk ht]
  constructor
  · rintro ⟨path, hpath, hfile, hne, hwants⟩
    obtain ⟨hwants, hincluded⟩ := (wants_iff_unpruned h hfile).1 hwants
    refine ⟨⟨path, hpath, hfile, hne, hwants⟩, ?_⟩
    rw [hpath, List.nil_append, hincluded]
    rfl
  · rintro ⟨⟨path, hpath, hfile, hne, hwants⟩, hincluded⟩
    rw [hpath, List.nil_append, Bool.not_eq_true'] at hincluded
    exact ⟨path, hpath, hfile, hne, (wants_iff_unpruned h hfile).2 ⟨hwants, hincluded⟩⟩

-- ========================================================= discovery

/-- A search at a directory is a walk from there. -/
theorem find_of_directory {top : Tree} {l : Location} (h : top.node? l = some (.directory es)) :
    s.find top l = (s.walk [] (.directory es)).map fun f => (l ++ f.path, f.bytes) := by
  rw [find, h]

/-- A search at a directory finds a file exactly when its suffix is wanted,
no directory above it has a closed name, and neither it nor a directory
above it is excluded; it finds the file once. The files stand in order: in
every directory its own files by their names, then what is below its
sub-directories, by their names. So listings may be permuted, at any depth,
and the same is found. If whatever excludes a directory excludes all files
below it, the same is found by a search without exclusions when the files
that are excluded are then left out; ignore rules of which none takes
anything back are so. -/
theorem discovery_exact (s : Selection) {top : Tree} {l : Location} {es : List (Text × Tree)}
    (h : top.node? l = some (.directory es)) (hes : (Tree.directory es).Distinct) :
    (∀ place bytes, (place, bytes) ∈ s.find top l
        ↔ ∃ path, place = l ++ path ∧ (Tree.directory es).HoldsFile path bytes ∧ s.Wants [] path)
      ∧ ((s.find top l).map Prod.fst).Nodup
      ∧ (s.find top l).Pairwise (fun a b => Precedes a.1 b.1)
      ∧ (∀ top' t, top'.node? l = some t → (Tree.directory es).Relisted t →
          s.find top' l = s.find top l)
      ∧ (ClosedDownwards s.excludes (.directory es) → s.find top l
          = (s.unpruned.find top l).filter
              fun a => !s.excludes (Text.join "/" (a.1.drop l.length)))
      ∧ ∀ ls, (∀ line ∈ ls, Text.starts '!' line = false) →
          ClosedDownwards (Ignore.excludes ls) (.directory es) := by
  -- one order on the results gives that none is twice
  have horder : (s.find top l).Pairwise fun a b => Precedes a.1 b.1 := by
    rw [find_of_directory h, List.pairwise_map]
    exact (pairwise_walk hes).imp fun hfg => hfg.append l
  refine ⟨?_, ?_, horder, ?_, ?_, ?_⟩
  · intro place bytes
    rw [find_of_directory h, List.mem_map]
    constructor
    · rintro ⟨f, hf, heq⟩
      cases heq
      obtain ⟨path, hpath, hfile, -, hwants⟩ := (mem_walk hes).1 hf
      exact ⟨path, by rw [hpath, List.nil_append], hfile, hwants⟩
    · rintro ⟨path, rfl, hfile, hwants⟩
      exact ⟨⟨path, bytes⟩, (mem_walk hes).2 ⟨path, rfl, hfile, hwants.ne_nil, hwants⟩, rfl⟩
  · rw [List.Nodup, List.pairwise_map]
    refine horder.imp ?_
    intro a b hab heq
    rw [heq] at hab
    exact hab.irrefl
  · intro top' t htop hlisted
    obtain ⟨fs, rfl⟩ := hlisted.exists_directory
    rw [find_of_directory h, find_of_directory htop,
      walk_congr hes (hlisted.distinct hes) (hlisted.holdsFile hes)]
  · intro hclosed
    rw [find_of_directory h, find_of_directory h, List.filter_map, walk_unpruned hes hclosed]
    congr 1
    refine List.filter_congr fun f _ => ?_
    rw [Function.comp_apply, List.drop_left]
  · intro ls hls part rest _ hpart hrest _
    exact Ignore.excludes_below hls hpart hrest

/-- In a project listed the other way round the file below `src` is found
all the same, and leaving out what is excluded may wait until the end. -/
theorem discovery_exact_project :
    let html : Text := "a.html"
    let below : Tree := .directory [(html, .file [])]
    let es : List (Text × Tree) := [("src", below), ("dist", below), (html, .file [])]
    let s : Selection := ⟨[".html"], Ignore.excludes ["dist/"]⟩
    ([Text.ofString "src", html], []) ∈ s.find (.directory es) []
      ∧ s.find (.directory es.reverse) [] = s.find (.directory es) []
      ∧ s.find (.directory es) [] = (s.unpruned.find (.directory es) []).filter
          fun a => !s.excludes (Text.join "/" (a.1.drop 0)) := by
  intro html below es s
  have hbelow : below.Distinct := .directory (by decide) (by
    intro e he
    rw [List.mem_singleton.1 he]
    exact .file [])
  have hes : (Tree.directory es).Distinct := .directory (by decide) (by
    simp only [es, List.forall_mem_cons]
    exact ⟨hbelow, hbelow, .file [], by simp⟩)
  have hls : ∀ line ∈ ([Text.ofString "dist/"] : List Text), Text.starts '!' line = false := by
    decide
  have hsuffix : suffixOf html = Text.ofString ".html" := by decide +kernel
  have henters : s.excludes (Text.join "/" ([] ++ [Text.ofString "src"]) ++ "/") = false := by
    decide +kernel
  have hincluded : s.excludes (Text.join "/" ([] ++ [Text.ofString "src"] ++ [html])) = false := by
    decide +kernel
  have hwants : s.Wants [] [Text.ofString "src", html] :=
    (wants_cons (by simp)).2 ⟨enters_iff.2 ⟨by decide, henters⟩,
      wants_singleton.2 (admits_iff.2 ⟨by rw [hsuffix]; exact List.mem_cons_self, hincluded⟩)⟩
  have hroot : (Tree.directory es).node? [] = some (.directory es) := rfl
  obtain ⟨hfound, -, -, hlisted, hpruned, hclosed⟩ := discovery_exact s hroot hes
  refine ⟨?_, ?_, ?_⟩
  · exact (hfound _ _).2 ⟨_, rfl, rfl, hwants⟩
  · exact hlisted _ _ rfl (.listing (List.reverse_perm es).symm)
  · exact hpruned (hclosed _ hls)

end Selection

end KeyHarvest
