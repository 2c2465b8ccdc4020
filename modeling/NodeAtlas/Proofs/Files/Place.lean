import Mathlib.Data.List.Basic
import NodeAtlas.Files.Tree
import NodeAtlas.Proofs.Text.Search

/-!
Where paths lead. A path below a directory has the parts of the directory and one more, and the place
that it leads to can be told from its text and the working directory: in any tree in which the path
leads somewhere, that is its place.
-/

namespace NodeAtlas

namespace Path

/-! ## Parts -/

/-- A text that is a part of a path, and neither a dot nor two. -/
structure IsName (s : String) : Prop where
  noSlash : '/' ∉ s.toList
  ne_empty : s ≠ ""
  ne_here : s ≠ "."
  ne_up : s ≠ ".."

theorem splitOn_slash (s t : List Char) :
    (s ++ '/' :: t).splitOn '/' = s.splitOn '/' ++ t.splitOn '/' :=
  List.splitOnP_append_cons s t rfl

theorem splitOn_of_noSlash {s : List Char} (h : '/' ∉ s) : s.splitOn '/' = [s] := by
  refine List.splitOnP_eq_singleton fun c hc => ?_
  rw [beq_eq_false_iff_ne]
  rintro rfl
  exact h hc

theorem noSlash_of_mem_segments {path s : String} (h : s ∈ segments path) : '/' ∉ s.toList := by
  obtain ⟨hmem, -⟩ := List.mem_filter.mp h
  obtain ⟨piece, hpiece, rfl⟩ := List.mem_map.mp hmem
  rw [String.toList_ofList]
  exact Text.not_mem_of_mem_splitOn hpiece

theorem segments_name {s : String} (h : IsName s) : segments s = [s] := by
  simp [segments, splitOn_of_noSlash h.noSlash, h.ne_empty, h.ne_here]

theorem origin_name {s : String} (h : IsName s) : origin s = [] := by
  have hhead : ¬ s.toList.head? = some '/' := fun heq => h.noSlash (List.mem_of_head? heq)
  have hdot : s.toList ≠ ['.'] := fun heq => h.ne_here (String.toList_inj.mp heq)
  simp [origin, isAbsolute, splitOn_of_noSlash h.noSlash, hhead, hdot]

section Slash

variable {path front rest : String}

theorem segments_slash (h : path.toList = front.toList ++ '/' :: rest.toList) :
    segments path = segments front ++ segments rest := by
  simp [segments, h, splitOn_slash]

theorem origin_slash (h : path.toList = front.toList ++ '/' :: rest.toList) :
    origin path = if front = "" then [.root] else origin front := by
  split
  · next hfront => simp [origin, isAbsolute, h, hfront]
  · next hfront =>
    have hne : front.toList ≠ [] := fun heq => hfront (String.toList_inj.mp heq)
    have hhead : path.toList.head? = front.toList.head? := by
      rw [h, List.head?_append_of_ne_nil _ hne]
    have hpiece : (path.toList.splitOn '/').head? = (front.toList.splitOn '/').head? := by
      rw [h, splitOn_slash, List.head?_append_of_ne_nil _ (List.splitOn_ne_nil _ _)]
    rw [origin, origin, isAbsolute, isAbsolute, hhead, hpiece]

end Slash

/-- A path below a directory is the directory, a slash and the path. If the directory is written with
a slash at its end, there is no second one. -/
theorem join_toList {base name : String} (hname : IsName name) (hbase : base ≠ "") :
    ∃ front : String, (join base name).toList = front.toList ++ '/' :: name.toList ∧
      (base = front ∨ base.toList = front.toList ++ '/' :: "".toList) := by
  have habsolute : isAbsolute name = false := by
    rw [isAbsolute, beq_eq_false_iff_ne]
    exact fun heq => hname.noSlash (List.mem_of_head? heq)
  by_cases hlast : base.toList.getLast? = some '/'
  · obtain ⟨front, hfront⟩ := List.getLast?_eq_some_iff.mp hlast
    refine ⟨.ofList front, ?_, .inr ?_⟩
    · simp [join, habsolute, hbase, hfront]
    · simp [hfront]
  · exact ⟨base, by simp [join, habsolute, hbase, hlast], .inl rfl⟩

theorem join_empty {name : String} : join "" name = name := by
  simp [join]

theorem segments_join {name : String} (base : String) (hname : IsName name) :
    segments (join base name) = segments base ++ [name] := by
  by_cases hbase : base = ""
  · rw [hbase, join_empty, segments_name hname]
    rfl
  · obtain ⟨front, hjoin, heq⟩ := join_toList hname hbase
    rw [segments_slash hjoin, segments_name hname]
    rcases heq with rfl | heq
    · rfl
    · rw [segments_slash heq]
      simp [segments]

theorem origin_join {name : String} (base : String) (hname : IsName name) :
    origin (join base name) = origin base := by
  by_cases hbase : base = ""
  · rw [hbase, join_empty, origin_name hname]
    rfl
  · obtain ⟨front, hjoin, heq⟩ := join_toList hname hbase
    rw [origin_slash hjoin]
    rcases heq with rfl | heq
    · rw [if_neg hbase]
    · rw [origin_slash heq]

theorem parts_join {name : String} (base : String) (hname : IsName name) :
    parts (join base name) = parts base ++ [.name name] := by
  rw [parts, origin_join base hname, segments_join base hname, List.map_append, ← List.append_assoc]
  simp [parts, Part.ofText, hname.ne_up]

theorem noSlash_of_fileName? {path name : String} (h : fileName? path = some name) :
    '/' ∉ name.toList := by
  have hlast : (parts path).getLast? = some (.name name) := by
    unfold fileName? at h
    split at h
    · next s hs => rw [hs, Option.some.inj h]
    · contradiction
  rcases List.mem_append.mp (List.mem_of_getLast? hlast) with hmem | hmem
  · unfold origin at hmem
    split at hmem
    · simp at hmem
    · split at hmem <;> simp at hmem
  · obtain ⟨s, hs, hpart⟩ := List.mem_map.mp hmem
    unfold Part.ofText at hpart
    split at hpart
    · contradiction
    · rw [← Part.name.inj hpart]
      exact noSlash_of_mem_segments hs

/-! ## Places -/

theorem isAbsolute_iff {path : String} : isAbsolute path = true ↔ origin path = [.root] := by
  unfold origin
  split
  · next h => simp [h]
  · next h => split <;> simp [h]

/-- Paths with one origin start at one directory. -/
theorem start_eq_of_origin {a b : String} (h : origin a = origin b) (home : Spot) :
    start home a = start home b := by
  have habsolute : isAbsolute a = isAbsolute b := by
    rw [Bool.eq_iff_iff, isAbsolute_iff, isAbsolute_iff, h]
  rw [start, start, habsolute]

theorem step_name {name : String} (hname : name ≠ "..") (s : Spot) : s.step name = s ++ [name] :=
  if_neg hname

theorem place_join {name : String} (home : Spot) (base : String) (hname : IsName name) :
    place home (join base name) = place home base ++ [name] := by
  rw [place, segments_join base hname, start_eq_of_origin (origin_join base hname), List.foldl_concat,
    step_name hname.ne_up, place]

/-- Two paths meet if they lead to one place, however they are written. -/
def Meets (home : Spot) (a b : String) : Prop := place home a = place home b

instance {home : Spot} {a b : String} : Decidable (Meets home a b) :=
  inferInstanceAs (Decidable (place home a = place home b))

example : Meets ["w", "defs"] "../out/./a.md" "/w/out/a.md" := by decide +kernel

/-- In one directory, only equal names lead to one place. -/
theorem eq_of_meets_join {home : Spot} {base name name' : String} (hname : IsName name)
    (hname' : IsName name') (h : Meets home (join base name) (join base name')) : name = name' := by
  rw [Meets, place_join home base hname, place_join home base hname'] at h
  simpa using h

end Path

namespace FileTree

theorem eq_foldl_of_follow? {t : FileTree} {s s' : Spot} {names : List String}
    (h : t.follow? s names = some s') : s' = names.foldl Spot.step s := by
  induction names generalizing s with
  | nil => exact (Option.some.inj h).symm
  | cons name names ih =>
    rw [follow?] at h
    split at h
    · exact ih h
    · contradiction

theorem spot?_eq_some_iff {t : FileTree} {path : String} {s : Spot} : t.spot? path = some s ↔
    path ≠ "" ∧ t.follow? (Path.start t.home path) (Path.segments path) = some s := by
  unfold spot?
  split <;> simp_all

theorem eq_place_of_spot? {t : FileTree} {path : String} {s : Spot} (h : t.spot? path = some s) :
    s = Path.place t.home path :=
  eq_foldl_of_follow? (spot?_eq_some_iff.mp h).2

theorem eq_of_meets {t : FileTree} {a b : String} {s s' : Spot} (h : Path.Meets t.home a b)
    (hs : t.spot? a = some s) (hs' : t.spot? b = some s') : s = s' := by
  rw [eq_place_of_spot? hs, eq_place_of_spot? hs']
  exact h

theorem read?_eq_some_iff {t : FileTree} {path : String} {c : ByteArray} :
    t.read? path = some c ↔
      meansDirectory path = false ∧ ∃ s, t.spot? path = some s ∧ t.get? s = some (.file c) := by
  unfold read? entry?
  cases hspot : t.spot? path with
  | none => simp
  | some s =>
    rw [Option.bind_some]
    cases hentry : t.get? s with
    | none => simp [hentry]
    | some e =>
      cases e with
      | directory => simp [hentry]
      | file content => cases meansDirectory path <;> simp [hentry]

theorem get?_of_isMissingAlong {t : FileTree} {s : Spot} {names : List String}
    (h : t.isMissingAlong s names = true) : (t.follow? s names).bind t.get? = none := by
  induction names generalizing s with
  | nil => simpa [isMissingAlong, follow?] using h
  | cons name names ih =>
    rw [isMissingAlong] at h
    rw [follow?, isDirectoryAt]
    cases hentry : t.get? s with
    | none => simp
    | some e =>
      cases e with
      | file c => simp [hentry] at h
      | directory =>
        rw [hentry] at h
        rw [if_pos rfl]
        exact ih h

/-- What is missing cannot be read. -/
theorem read?_of_isMissing {t : FileTree} {path : String} (h : t.isMissing path = true) :
    t.read? path = none := by
  have hentry : (t.spot? path).bind t.get? = none := by
    unfold spot?
    split
    · rfl
    · next hpath => exact get?_of_isMissingAlong (by simpa [isMissing, hpath] using h)
  unfold read? entry?
  rw [hentry]

/-- A file that can be read has a name. -/
theorem isSome_fileName?_of_read? {t : FileTree} {path : String} {c : ByteArray}
    (h : t.read? path = some c) : (Path.fileName? path).isSome = true := by
  obtain ⟨hfile, -⟩ := read?_eq_some_iff.mp h
  obtain ⟨pieces, last, hpath⟩ := (List.eq_nil_or_concat (path.toList.splitOn '/')).resolve_left
    (List.splitOn_ne_nil _ _)
  have hlast : last ≠ [] ∧ last ≠ ['.'] ∧ last ≠ ['.', '.'] := by
    simpa [meansDirectory, hpath, and_assoc] using hfile
  have hsegments : (Path.segments path).getLast? = some (.ofList last) := by
    have hkept : String.ofList last ≠ "" ∧ String.ofList last ≠ "." := by
      simpa [← String.toList_inj] using ⟨hlast.1, hlast.2.1⟩
    simp [Path.segments, hpath, hkept]
  have hup : String.ofList last ≠ ".." := by
    simpa [← String.toList_inj] using hlast.2.2
  have hparts : (Path.parts path).getLast? = some (.name (.ofList last)) := by
    rw [Path.parts, List.getLast?_append, List.getLast?_map, hsegments]
    simp [Path.Part.ofText, hup]
  rw [Path.fileName?, hparts]
  rfl

end FileTree

end NodeAtlas
