import NodeAtlas.Files.Discovery
import NodeAtlas.Proofs.Files.Change
import NodeAtlas.Proofs.Files.Order
import NodeAtlas.Proofs.Outcome

/-!
The definition files at some paths. They are sorted, and no path is repeated. One file is found twice
only if two of the given paths spell the way to it differently: from the root or from the working
directory, with or without a dot in front, or up through a directory.
-/

namespace NodeAtlas

/-! ## Paths below a directory -/

namespace Path

/-- A path without steps up leads to the names that it is written with, from where it starts. -/
theorem place_of_noUp {path : String} (h : ".." ∉ segments path) (home : Spot) :
    place home path = start home path ++ segments path := by
  have hfold (names : List String) (s : Spot) (hnames : ".." ∉ names) :
      names.foldl Spot.step s = s ++ names := by
    induction names generalizing s with
    | nil => rw [List.foldl_nil, List.append_nil]
    | cons name names ih =>
      rw [List.mem_cons, not_or] at hnames
      rw [List.foldl_cons, step_name (Ne.symm hnames.1), ih _ hnames.2, List.append_assoc,
        List.singleton_append]
  exact hfold (segments path) (start home path) h

/-- Whether one place may be spelled in two ways below two paths: they start at the root, with a dot or
with neither, but not both in one way, or one of them goes up. -/
def SpelledApart (a b : String) : Prop :=
  origin a ≠ origin b ∨ ".." ∈ segments a ∨ ".." ∈ segments b

/-- A path is another one with some names behind it. -/
structure Extends (p base : String) (names : List String) : Prop where
  origin : origin p = origin base
  segments : segments p = segments base ++ names
  names : ∀ name ∈ names, IsName name

theorem Extends.refl (p : String) : Extends p p [] :=
  ⟨rfl, (List.append_nil _).symm, List.forall_mem_nil _⟩

theorem Extends.join {p base name : String} {names : List String}
    (h : Extends p (join base name) names) (hname : IsName name) :
    Extends p base (name :: names) := by
  constructor
  · rw [h.origin, origin_join base hname]
  · rw [h.segments, segments_join base hname, List.append_assoc, List.singleton_append]
  · exact List.forall_mem_cons.mpr ⟨hname, h.names⟩

theorem Extends.noUp {p base : String} {names : List String} (h : Extends p base names)
    (hbase : ".." ∉ Path.segments base) : ".." ∉ Path.segments p := by
  rw [h.segments, List.mem_append, not_or]
  exact ⟨hbase, fun hup => (h.names ".." hup).ne_up rfl⟩

/-- Paths that lead to one place are the same unless they extend paths that are spelled apart. -/
theorem same_of_meets {home : Spot} {p q a b : String} {names names' : List String}
    (hp : Extends p a names) (hq : Extends q b names') (hmeets : Meets home p q)
    (h : ¬ SpelledApart a b) : same p q = true := by
  rw [SpelledApart, not_or, not_or, ne_eq, Classical.not_not] at h
  obtain ⟨horigin, ha, hb⟩ := h
  have hpq : Path.origin p = Path.origin q := by
    rw [hp.origin, hq.origin, horigin]
  have hsegments : Path.segments p = Path.segments q := by
    rw [Meets, place_of_noUp (hp.noUp ha), place_of_noUp (hq.noUp hb), start_eq_of_origin hpq] at hmeets
    exact List.append_cancel_left hmeets
  rw [same, parts, parts, hpq, hsegments, beq_self_eq_true]

end Path

namespace FileTree

theorem mem_names_iff {t : FileTree} {s : Spot} {name : String} :
    name ∈ t.names s ↔ ∃ e ∈ t.entries, e.1 = s ++ [name] := by
  rw [names, List.mem_filterMap]
  apply exists_congr
  intro e
  apply and_congr_right
  intro _
  cases hrev : e.1.reverse with
  | nil =>
    have hnil : e.1 = [] := List.reverse_eq_nil_iff.mp hrev
    simp [hnil]
  | cons last above =>
    have hspot : e.1 = above.reverse ++ [last] := by
      rw [← List.reverse_reverse e.1, hrev, List.reverse_cons]
    rw [hspot]
    simp [and_comm]

theorem IsNamed.isName {t : FileTree} {s : Spot} {name : String} (h : t.IsNamed)
    (hname : name ∈ t.names s) : Path.IsName name := by
  obtain ⟨e, he, hspot⟩ := mem_names_iff.mp hname
  exact h.entries e he name (by simp [hspot])

/-- An entry of a directory that is none itself is a file. -/
theorem exists_file {t : FileTree} {s : Spot} {name : String} (hname : name ∈ t.names s)
    (hfile : t.isDirectoryAt (s ++ [name]) = false) :
    ∃ c, t.get? (s ++ [name]) = some (.file c) := by
  obtain ⟨e, he, hspot⟩ := mem_names_iff.mp hname
  have hget : (t.get? (s ++ [name])).isSome = true := by
    rw [get?, if_neg (by simp), List.lookup_isSome_iff]
    exact ⟨e, he, by simp [hspot]⟩
  obtain ⟨entry, hentry⟩ := Option.isSome_iff_exists.mp hget
  cases entry with
  | file c => exact ⟨c, hentry⟩
  | directory =>
    rw [isDirectoryAt, hentry] at hfile
    cases hfile

theorem follow?_concat {t : FileTree} {s s' : Spot} {names : List String} {name : String}
    (h : t.follow? s names = some s') (hdir : t.isDirectoryAt s' = true) :
    t.follow? s (names ++ [name]) = some (s'.step name) := by
  induction names generalizing s with
  | nil =>
    cases h
    rw [List.nil_append, follow?, if_pos hdir, follow?]
  | cons first names ih =>
    rw [follow?] at h
    rw [List.cons_append, follow?]
    split at h
    · next hs =>
      rw [if_pos hs]
      exact ih h
    · cases h

/-- An entry of a directory is where the path of the directory with its name leads. -/
theorem spot?_join {t : FileTree} {s : Spot} {base name : String} (h : t.spot? base = some s)
    (hdir : t.isDirectoryAt s = true) (hname : Path.IsName name) :
    t.spot? (Path.join base name) = some (s ++ [name]) := by
  obtain ⟨-, hfollow⟩ := spot?_eq_some_iff.mp h
  have hsegments := Path.segments_join base hname
  have hne : Path.join base name ≠ "" := by
    intro hempty
    rw [hempty] at hsegments
    simp [Path.segments] at hsegments
  rw [spot?_eq_some_iff, hsegments, Path.start_eq_of_origin (Path.origin_join base hname)]
  exact ⟨hne, Path.step_name hname.ne_up s ▸ follow?_concat hfollow hdir⟩

theorem isFile_iff {t : FileTree} {path : String} : t.isFile path = true ↔
    meansDirectory path = false ∧ ∃ s c, t.spot? path = some s ∧ t.get? s = some (.file c) := by
  have hread : t.isFile path = (t.read? path).isSome := by
    unfold isFile read?
    split <;> simp_all
  rw [hread, Option.isSome_iff_exists]
  simp only [read?_eq_some_iff]
  constructor
  · rintro ⟨c, hmeans, s, hs⟩
    exact ⟨hmeans, s, c, hs⟩
  · rintro ⟨hmeans, s, c, hs⟩
    exact ⟨c, hmeans, s, hs⟩

theorem isDirectory_iff {t : FileTree} {path : String} : t.isDirectory path = true ↔
    ∃ s, t.spot? path = some s ∧ t.isDirectoryAt s = true := by
  unfold isDirectory entry? isDirectoryAt
  cases hspot : t.spot? path with
  | none => simp
  | some s =>
    cases hentry : t.get? s with
    | none => simp [hentry]
    | some e => cases e <;> cases meansDirectory path <;> simp [hentry]

theorem meansDirectory_join {base name : String} (hname : Path.IsName name) (hbase : base ≠ "") :
    meansDirectory (Path.join base name) = false := by
  obtain ⟨front, hjoin, -⟩ := Path.join_toList hname hbase
  have hlast : ((Path.join base name).toList.splitOn '/').getLast? = some name.toList := by
    rw [hjoin, Path.splitOn_slash, Path.splitOn_of_noSlash hname.noSlash, List.getLast?_concat]
  have hne : name.toList ≠ [] ∧ name.toList ≠ ['.'] ∧ name.toList ≠ ['.', '.'] :=
    ⟨fun h => hname.ne_empty (String.toList_inj.mp h), fun h => hname.ne_here (String.toList_inj.mp h),
      fun h => hname.ne_up (String.toList_inj.mp h)⟩
  rw [meansDirectory, hlast]
  simp [hne]

end FileTree

/-! ## Walks -/

namespace Discovery

variable {t : FileTree} {patterns paths : List String}

/-- A definition file below a path. -/
structure IsBelow (t : FileTree) (base p : String) : Prop where
  isFile : t.isFile p = true
  isDefinition : isDefinitionFile p = true
  extends_base : ∃ name names, Path.Extends p base (name :: names)

theorem fileName?_join {base name : String} (hname : Path.IsName name) :
    Path.fileName? (Path.join base name) = some name := by
  rw [Path.fileName?, Path.parts_join base hname, List.getLast?_concat]

theorem fileName?_name {name : String} (hname : Path.IsName name) :
    Path.fileName? name = some name := by
  have hjoin := @fileName?_join "" name hname
  rwa [Path.join_empty] at hjoin

/-- A walk finds nothing but definition files, and spells them as the path of the directory with the
names that lead to them. -/
theorem isBelow_of_mem_filesBelow {w : Walk} (h : w.tree.IsNamed) {depth : Nat} {levels : List Level}
    {s : Spot} {path p : String} (hspot : w.tree.spot? path = some s)
    (hdir : w.tree.isDirectoryAt s = true) (hp : p ∈ w.filesBelow depth levels s path) :
    IsBelow w.tree path p := by
  induction depth generalizing levels s path with
  | zero => exact absurd hp List.not_mem_nil
  | succ depth ih =>
    obtain ⟨name, hmem, hp⟩ := List.mem_flatMap.mp hp
    have hname := h.isName hmem
    have hbelow := FileTree.spot?_join hspot hdir hname
    dsimp only at hp
    split at hp
    · exact absurd hp List.not_mem_nil
    split at hp
    · next hsub =>
      obtain ⟨hfile, hdefinition, first, names, hextends⟩ := ih hbelow hsub hp
      exact ⟨hfile, hdefinition, name, first :: names, hextends.join hname⟩
    split at hp
    · next hsub hdefinition =>
      rw [List.mem_singleton] at hp
      subst hp
      have hbase : path ≠ "" := by
        rintro rfl
        cases hspot
      obtain ⟨c, hc⟩ := FileTree.exists_file hmem (by simpa using hsub)
      refine ⟨FileTree.isFile_iff.mpr
        ⟨FileTree.meansDirectory_join hname hbase, _, c, hbelow, hc⟩, ?_, name, [], ?_⟩
      · rwa [isDefinitionFile, fileName?_join hname, ← fileName?_name hname]
      · exact (Path.Extends.refl _).join hname
    · exact absurd hp List.not_mem_nil

theorem isBelow_of_mem_walk {rules : List Glob.Rule} {path p : String} (h : t.IsNamed)
    (hpath : t.isDirectory path = true) (hp : p ∈ walk t rules path) : IsBelow t path p := by
  obtain ⟨s, hs, hdir⟩ := FileTree.isDirectory_iff.mp hpath
  rw [walk, hs] at hp
  exact @isBelow_of_mem_filesBelow ⟨t, s, rules⟩ h _ _ _ _ _ hs hdir hp

/-! ## Repeated paths -/

theorem dropRepeats_sublist (ps : List String) : (dropRepeats ps).Sublist ps := by
  fun_induction dropRepeats ps with
  | case1 => exact List.Sublist.refl []
  | case2 p => exact List.Sublist.refl [p]
  | case3 p q rest hsame ih => exact ih.trans ((List.sublist_cons_self q rest).cons_cons p)
  | case4 p q rest hsame ih => exact ih.cons_cons p

/-- Every path stays, or another one that is the same. -/
theorem exists_same_dropRepeats {ps : List String} {p : String} (h : p ∈ ps) :
    ∃ q ∈ dropRepeats ps, Path.same q p = true := by
  fun_induction dropRepeats ps generalizing p with
  | case1 => exact absurd h List.not_mem_nil
  | case2 first =>
    rw [List.mem_singleton.mp h]
    exact ⟨first, List.mem_singleton_self first, Path.same_iff.mpr rfl⟩
  | case3 first second rest hsame ih =>
    rcases List.mem_cons.mp h with rfl | hmem
    · exact ih List.mem_cons_self
    rcases List.mem_cons.mp hmem with rfl | hrest
    · obtain ⟨q, hq, hqsame⟩ := ih List.mem_cons_self
      exact ⟨q, hq, Path.same_iff.mpr ((Path.same_iff.mp hqsame).trans (Path.same_iff.mp hsame))⟩
    · exact ih (List.mem_cons_of_mem first hrest)
  | case4 first second rest hsame ih =>
    rcases List.mem_cons.mp h with rfl | hmem
    · exact ⟨p, List.mem_cons_self, Path.same_iff.mpr rfl⟩
    · obtain ⟨q, hq, hqsame⟩ := ih hmem
      exact ⟨q, List.mem_cons_of_mem first hq, hqsame⟩

/-- In a sorted list the same paths stand together, so none is left twice. -/
theorem dropRepeats_strict {ps : List String} (h : ps.Pairwise fun p q => Path.le p q = true) :
    (dropRepeats ps).Pairwise fun p q => Path.le p q = true ∧ Path.same p q = false := by
  fun_induction dropRepeats ps with
  | case1 => exact List.Pairwise.nil
  | case2 p => exact List.pairwise_singleton _ p
  | case3 p q rest hsame ih => exact ih (h.sublist ((List.sublist_cons_self q rest).cons_cons p))
  | case4 p q rest hsame ih =>
    obtain ⟨hfirst, hrest⟩ := List.pairwise_cons.mp h
    refine List.Pairwise.cons (fun x hx => ?_) (ih hrest)
    have hmem : x ∈ q :: rest := (dropRepeats_sublist _).subset hx
    refine ⟨hfirst x hmem, ?_⟩
    rw [Bool.eq_false_iff]
    intro hpx
    -- A later path that is the same as the first would not come after the second.
    have hqx : Path.le q x = true := by
      rcases List.mem_cons.mp hmem with rfl | hlater
      · exact Path.le_refl x
      · exact (List.pairwise_cons.mp hrest).1 x hlater
    have hqp : Path.le q p = true := by
      rwa [Path.le, Path.same_iff.mp hpx]
    exact hsame (Path.same_of_le (hfirst q List.mem_cons_self) hqp)

/-! ## Lists of paths -/

/-- A path finds a file: itself, if no pattern excludes it, or one below it. -/
def Finds (t : FileTree) (patterns : List String) (path p : String) : Prop :=
  ∃ excluded files, matchers? patterns = .ok excluded ∧
    filesAt t patterns excluded path = .ok files ∧ p ∈ files

/-- What finds a file spells the way to it. -/
theorem Finds.cases {path p : String} (h : t.IsNamed) (hfinds : Finds t patterns path p) :
    p = path ∧ t.isFile p = true ∨ t.isDirectory path = true ∧ IsBelow t path p := by
  obtain ⟨excluded, files, -, hfiles, hp⟩ := hfinds
  unfold filesAt at hfiles
  split at hfiles
  · next hfile =>
    cases hfiles
    split at hp
    · exact absurd hp List.not_mem_nil
    · rw [List.mem_singleton] at hp
      subst hp
      exact .inl ⟨rfl, hfile⟩
  split at hfiles
  · next hdir =>
    obtain ⟨rules, -, hwalk⟩ := bind_eq_ok_iff.mp hfiles
    cases hwalk
    exact .inr ⟨hdir, isBelow_of_mem_walk h hdir hp⟩
  · cases hfiles

theorem Finds.isFile {path p : String} (h : t.IsNamed) (hfinds : Finds t patterns path p) :
    t.isFile p = true := by
  rcases hfinds.cases h with ⟨-, hfile⟩ | ⟨-, hbelow⟩
  · exact hfile
  · exact hbelow.isFile

theorem Finds.extends_path {path p : String} (h : t.IsNamed) (hfinds : Finds t patterns path p) :
    ∃ names, Path.Extends p path names := by
  rcases hfinds.cases h with ⟨rfl, -⟩ | ⟨-, hbelow⟩
  · exact ⟨[], Path.Extends.refl p⟩
  · obtain ⟨name, names, hextends⟩ := hbelow.extends_base
    exact ⟨name :: names, hextends⟩

/-- A pattern that no rule can be made of, with the failure that names it. -/
inductive Rejects (pattern : String) : Failure → Prop where
  | exclude (h : Glob.Matcher.ofPattern? false false pattern.toList = none) :
      Rejects pattern (.excludePattern pattern)
  | walk (h : Glob.Rule.ofText? false (Glob.Rule.trimLine ('!' :: pattern.toList)) = none) :
      Rejects pattern (.walkPattern pattern)

theorem rejects_of_matchers? {f : Failure} (h : matchers? patterns = .error f) :
    ∃ pattern ∈ patterns, Rejects pattern f := by
  obtain ⟨pattern, hmem, hpattern⟩ := exists_of_mapM_eq_error h
  refine ⟨pattern, hmem, ?_⟩
  split at hpattern
  · cases hpattern
  · next hnone =>
    cases hpattern
    exact .exclude hnone

theorem rejects_of_excludeRules? {f : Failure} (h : excludeRules? patterns = .error f) :
    ∃ pattern ∈ patterns, Rejects pattern f := by
  rw [excludeRules?] at h
  obtain ⟨pattern, hmem, hpattern⟩ := exists_of_mapM_eq_error h
  refine ⟨pattern, hmem, ?_⟩
  dsimp only at hpattern
  split at hpattern
  · cases hpattern
  · next hnone =>
    cases hpattern
    exact .walk hnone

/-- Existing paths fail only for a pattern. -/
theorem rejects_of_filesAt {excluded : List Glob.Matcher} {path : String} {f : Failure}
    (hpath : t.isFile path = true ∨ t.isDirectory path = true)
    (h : filesAt t patterns excluded path = .error f) : ∃ pattern ∈ patterns, Rejects pattern f := by
  unfold filesAt at h
  split at h
  · cases h
  · next hfile =>
    rw [if_pos (hpath.resolve_left hfile)] at h
    cases hrules : excludeRules? patterns with
    | ok rules =>
      rw [hrules] at h
      cases h
    | error f' =>
      rw [hrules] at h
      cases h
      exact rejects_of_excludeRules? hrules

/-- The files that are discovered at some paths. -/
structure Discovered (t : FileTree) (patterns paths files : List String) : Prop where
  sorted : files.Pairwise fun p q => Path.le p q = true ∧ Path.same p q = false
  /-- Every entry is a file that one of the paths finds: the path itself or a definition file below. -/
  sound : ∀ p ∈ files, ∃ path ∈ paths, Finds t patterns path p ∧
    (p = path ∧ t.isFile p = true ∨ t.isDirectory path = true ∧ IsBelow t path p)
  /-- Every file that is found has an entry. -/
  complete : ∀ path ∈ paths, ∀ p, Finds t patterns path p → ∃ q ∈ files, Path.same q p = true
  /-- Two entries lead to one place only if paths that find them spell the way differently. -/
  distinct : files.Pairwise fun p q => t.spot? p = t.spot? q →
    ∃ a ∈ paths, ∃ b ∈ paths, Finds t patterns a p ∧ Finds t patterns b q ∧ Path.SpelledApart a b

theorem discover_of_matchers? {excluded : List Glob.Matcher} (h : matchers? patterns = .ok excluded) :
    discover t patterns paths = (paths.mapM (filesAt t patterns excluded) >>= fun found =>
      .ok (dropRepeats (found.flatten.mergeSort Path.le))) := by
  rw [discover, h]
  rfl

/-- Paths that are there are discovered, or a pattern is no pattern. -/
theorem discover_cases (hpaths : ∀ path ∈ paths, t.isFile path = true ∨ t.isDirectory path = true) :
    (∃ excluded found, matchers? patterns = .ok excluded ∧
      paths.mapM (filesAt t patterns excluded) = .ok found ∧
      discover t patterns paths = .ok (dropRepeats (found.flatten.mergeSort Path.le))) ∨
    ∃ f, discover t patterns paths = .error f ∧ ∃ pattern ∈ patterns, Rejects pattern f := by
  cases hexcluded : matchers? patterns with
  | error f =>
    refine .inr ⟨f, ?_, rejects_of_matchers? hexcluded⟩
    rw [discover, hexcluded]
    rfl
  | ok excluded =>
    rw [discover_of_matchers? hexcluded]
    cases hfound : paths.mapM (filesAt t patterns excluded) with
    | ok found => exact .inl ⟨excluded, found, rfl, hfound, rfl⟩
    | error f =>
      obtain ⟨path, hmem, hfiles⟩ := exists_of_mapM_eq_error hfound
      exact .inr ⟨f, rfl, rejects_of_filesAt (hpaths path hmem) hfiles⟩

theorem discovered_of_found (ht : t.IsNamed) {excluded : List Glob.Matcher}
    {found : List (List String)} (hexcluded : matchers? patterns = .ok excluded)
    (hfound : paths.mapM (filesAt t patterns excluded) = .ok found) :
    Discovered t patterns paths (dropRepeats (found.flatten.mergeSort Path.le)) := by
  obtain ⟨hfrom, hto⟩ := exists_of_mapM_eq_ok hfound
  have hsorted := dropRepeats_strict
    (List.pairwise_mergeSort Path.le_trans Path.le_total found.flatten)
  have hfinds : ∀ p ∈ dropRepeats (found.flatten.mergeSort Path.le),
      ∃ path ∈ paths, Finds t patterns path p := by
    intro p hp
    have hmem := (dropRepeats_sublist _).subset hp
    rw [List.mem_mergeSort, List.mem_flatten] at hmem
    obtain ⟨files, hfiles, hpfiles⟩ := hmem
    obtain ⟨path, hpath, heq⟩ := hfrom files hfiles
    exact ⟨path, hpath, excluded, files, hexcluded, heq, hpfiles⟩
  constructor
  · exact hsorted
  · intro p hp
    obtain ⟨path, hpath, hfind⟩ := hfinds p hp
    exact ⟨path, hpath, hfind, hfind.cases ht⟩
  · rintro path hpath p ⟨excluded', files, hexcluded', hfiles, hp⟩
    obtain rfl : excluded = excluded' := Except.ok.inj (hexcluded.symm.trans hexcluded')
    obtain ⟨files', hmem, hfiles'⟩ := hto path hpath
    obtain rfl : files = files' := Except.ok.inj (hfiles.symm.trans hfiles')
    apply exists_same_dropRepeats
    rw [List.mem_mergeSort, List.mem_flatten]
    exact ⟨files, hmem, hp⟩
  · refine hsorted.imp_of_mem fun {p q} hp hq hpq hspot => ?_
    obtain ⟨a, ha, hpa⟩ := hfinds p hp
    obtain ⟨b, hb, hqb⟩ := hfinds q hq
    refine ⟨a, ha, b, hb, hpa, hqb, ?_⟩
    obtain ⟨names, hnames⟩ := hpa.extends_path ht
    obtain ⟨names', hnames'⟩ := hqb.extends_path ht
    obtain ⟨-, s, c, hs, -⟩ := FileTree.isFile_iff.mp (hpa.isFile ht)
    have hmeets : Path.Meets t.home p q :=
      (FileTree.eq_place_of_spot? hs).symm.trans (FileTree.eq_place_of_spot? (hspot ▸ hs))
    -- Otherwise the two would be the same path, and that is not repeated.
    by_contra hspelled
    rw [Path.same_of_meets hnames hnames' hmeets hspelled] at hpq
    exact absurd hpq.2 Bool.true_eq_false.mp

/-- Files and directories that are there are discovered, unless an exclude pattern is rejected. Then
every file found has an entry, in the order of paths, and no two entries lead to one place unless
two of the paths spell the way there differently. -/
theorem discovered (ht : t.IsNamed)
    (hpaths : ∀ path ∈ paths, t.isFile path = true ∨ t.isDirectory path = true) :
    (∃ files, discover t patterns paths = .ok files ∧ Discovered t patterns paths files) ∨
      ∃ f, discover t patterns paths = .error f ∧ ∃ pattern ∈ patterns, Rejects pattern f := by
  rcases @discover_cases t patterns paths hpaths with ⟨excluded, found, hexcluded, hfound, heq⟩ | hfail
  · exact .inl ⟨_, heq, discovered_of_found ht hexcluded hfound⟩
  · exact .inr hfail

/-- An empty working directory. -/
def workTree : FileTree where
  entries := [(["w"], .directory)]
  home := ["w"]

theorem isNamed_workTree : workTree.IsNamed := by
  have hw : ∀ name ∈ ["w"], Path.IsName name := by
    rw [List.forall_mem_singleton]
    exact ⟨by decide, by decide, by decide, by decide⟩
  exact ⟨List.forall_mem_singleton.mpr hw, hw⟩

/-- A working directory with a definition file and a directory that has another one. -/
def nestedTree : FileTree :=
  let made := (workTree.makeDirectory "sub").1
  ((made.write "sub/b_types.def" .empty).1.write "/w/a_types.def" .empty).1

theorem isNamed_nestedTree : nestedTree.IsNamed :=
  ((isNamed_workTree.makeDirectory "sub").write "sub/b_types.def" .empty).write
    "/w/a_types.def" .empty

/-- Directories that overlap and a file inside of both, all of them with a dot in front or all of them
from the root. -/
theorem discovered_nestedTree :
    let dotted := ["./sub", ".", "./sub/b_types.def"]
    let rooted := ["/w/sub", "/w", "/w/sub/b_types.def"]
    nestedTree.IsNamed ∧
      (∀ path ∈ dotted ++ rooted,
        nestedTree.isFile path = true ∨ nestedTree.isDirectory path = true) ∧
      (∃ files, discover nestedTree [] dotted = .ok files ∧
        (∃ p ∈ files, Path.same p "./sub/b_types.def" = true) ∧
        files.Pairwise fun p q => nestedTree.spot? p ≠ nestedTree.spot? q) ∧
      ∃ files, discover nestedTree [] rooted = .ok files ∧
        (∃ p ∈ files, Path.same p "/w/sub/b_types.def" = true) ∧
        files.Pairwise fun p q => nestedTree.spot? p ≠ nestedTree.spot? q := by
  intro dotted rooted
  have hpaths : ∀ path ∈ dotted ++ rooted,
      nestedTree.isFile path = true ∨ nestedTree.isDirectory path = true := by
    decide +kernel
  have hlist {paths : List String} (hsub : paths ⊆ dotted ++ rooted)
      (halike : ∀ a ∈ paths, ∀ b ∈ paths, ¬ (Path.origin a ≠ Path.origin b ∨
        ".." ∈ Path.segments a ∨ ".." ∈ Path.segments b))
      {file : String} (hfile : file ∈ paths) (hfinds : Finds nestedTree [] file file) :
      ∃ files, discover nestedTree [] paths = .ok files ∧
        (∃ p ∈ files, Path.same p file = true) ∧
        files.Pairwise fun p q => nestedTree.spot? p ≠ nestedTree.spot? q := by
    rcases @discovered nestedTree [] paths isNamed_nestedTree fun path hpath => hpaths path (hsub hpath)
      with ⟨files, heq, h⟩ | ⟨f, -, hf⟩
    · refine ⟨files, heq, h.complete _ hfile _ hfinds, h.distinct.imp fun hpq hspot => ?_⟩
      obtain ⟨a, ha, b, hb, -, -, hapart⟩ := hpq hspot
      exact halike a ha b hb hapart
    · obtain ⟨pattern, hmem, -⟩ := hf
      exact absurd hmem List.not_mem_nil
  refine ⟨isNamed_nestedTree, hpaths, hlist (List.subset_append_left _ _) (by decide +kernel)
    (by simp [dotted]) ⟨[], ["./sub/b_types.def"], rfl, by decide +kernel, List.mem_singleton_self _⟩,
    hlist (List.subset_append_right _ _) (by decide +kernel) (by simp [rooted])
      ⟨[], ["/w/sub/b_types.def"], rfl, by decide +kernel, List.mem_singleton_self _⟩⟩

theorem dropRepeats_eq_self {ps : List String} (h : ps.Pairwise fun p q => Path.same p q = false) :
    dropRepeats ps = ps := by
  fun_induction dropRepeats ps with
  | case1 => rfl
  | case2 p => rfl
  | case3 p q rest hsame ih =>
    rw [(List.pairwise_cons.mp h).1 q List.mem_cons_self] at hsame
    contradiction
  | case4 p q rest hsame ih => rw [ih h.of_cons]

/-- What is found in order and without repeats is discovered as it is found. -/
theorem discover_eq {excluded : List Glob.Matcher} {found : List (List String)}
    (hexcluded : matchers? patterns = .ok excluded)
    (hfound : paths.mapM (filesAt t patterns excluded) = .ok found)
    (hsorted : found.flatten.Pairwise fun p q => Path.le p q = true ∧ Path.same p q = false) :
    discover t patterns paths = .ok found.flatten := by
  rw [discover_of_matchers? hexcluded, hfound]
  show Except.ok (dropRepeats (found.flatten.mergeSort Path.le)) = _
  rw [List.mergeSort_of_pairwise (hsorted.imp And.left), dropRepeats_eq_self (hsorted.imp And.right)]

/-- A directory that is spelled with a dot or from the root, and a file inside it that is not: the file
is discovered twice. -/
theorem discovered_twice :
    let t := (workTree.write "a_types.def" .empty).1
    t.isDirectory "." = true ∧ t.isDirectory "/w" = true ∧ t.isFile "a_types.def" = true ∧
      discover t [] [".", "a_types.def"] = .ok ["./a_types.def", "a_types.def"] ∧
      discover t [] ["/w", "a_types.def"] = .ok ["/w/a_types.def", "a_types.def"] ∧
      ∀ p ∈ ["./a_types.def", "/w/a_types.def", "a_types.def"],
        t.spot? p = some ["w", "a_types.def"] := by
  intro t
  have hdotted : discover t [] [".", "a_types.def"] =
      .ok [["./a_types.def"], ["a_types.def"]].flatten :=
    discover_eq rfl (by decide +kernel) (by decide +kernel)
  have hrooted : discover t [] ["/w", "a_types.def"] =
      .ok [["/w/a_types.def"], ["a_types.def"]].flatten :=
    discover_eq rfl (by decide +kernel) (by decide +kernel)
  exact ⟨by decide +kernel, by decide +kernel, by decide +kernel, hdotted, hrooted, by decide +kernel⟩

end Discovery

end NodeAtlas
