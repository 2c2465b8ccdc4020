import NodeAtlas.Proofs.Files.Place

/-!
What making directories and writing files change. No directory is ever lost, and no file but the one
that is written: every other file can still be read at its path. New entries are at names that a path
can have.
-/

namespace NodeAtlas

namespace FileTree

variable {P : Spot → Prop} {t t' t'' : FileTree} {s s' : Spot}

theorem isDirectoryAt_iff : t.isDirectoryAt s = true ↔ t.get? s = some .directory := by
  unfold isDirectoryAt
  split
  · next h => exact iff_of_true rfl h
  · next h => exact iff_of_false Bool.false_ne_true h

/-- Directories stay, and files stay outside of some spots. The working directory stays the same. -/
structure Keeps (P : Spot → Prop) (t t' : FileTree) : Prop where
  home : t'.home = t.home
  entry : ∀ s e, t.get? s = some e → (P s → e = .directory) → t'.get? s = some e

namespace Keeps

theorem refl (P : Spot → Prop) (t : FileTree) : Keeps P t t := ⟨rfl, fun _ _ h _ => h⟩

theorem trans (h : Keeps P t t') (h' : Keeps P t' t'') : Keeps P t t'' where
  home := h'.home.trans h.home
  entry s e he hs := h'.entry s e (h.entry s e he hs) hs

theorem isDirectoryAt (h : Keeps P t t') (hs : t.isDirectoryAt s = true) :
    t'.isDirectoryAt s = true := by
  rw [isDirectoryAt_iff] at *
  exact h.entry s .directory hs fun _ => rfl

theorem follow? {names : List String} (h : Keeps P t t') (hs : t.follow? s names = some s') :
    t'.follow? s names = some s' := by
  induction names generalizing s with
  | nil => exact hs
  | cons name names ih =>
    rw [FileTree.follow?] at hs ⊢
    split at hs
    · next hdir =>
      rw [if_pos (h.isDirectoryAt hdir)]
      exact ih hs
    · contradiction

theorem spot? {path : String} (h : Keeps P t t') (hs : t.spot? path = some s) :
    t'.spot? path = some s := by
  rw [spot?_eq_some_iff] at *
  rw [h.home]
  exact ⟨hs.1, h.follow? hs.2⟩

/-- A file that is not at one of the spots reads as before. -/
theorem read? {path : String} {c : ByteArray} (h : Keeps P t t') (hread : t.read? path = some c)
    (hpath : ¬ P (Path.place t.home path)) : t'.read? path = some c := by
  obtain ⟨hfile, s, hs, hget⟩ := read?_eq_some_iff.mp hread
  rw [← eq_place_of_spot? hs] at hpath
  exact read?_eq_some_iff.mpr ⟨hfile, s, h.spot? hs, h.entry s _ hget fun hp => absurd hp hpath⟩

/-- A new entry may take the place of nothing, and of a file at one of the spots. -/
theorem put {e : Entry} (h : ∀ e, t.get? s = some e → P s ∧ e ≠ .directory) :
    Keeps P t (t.put s e) := by
  refine ⟨rfl, fun s' e' hget hs' => ?_⟩
  by_cases heq : s' = s
  · subst heq
    obtain ⟨hP, hne⟩ := h e' hget
    exact absurd (hs' hP) hne
  · rw [get?_put_of_ne t e heq]
    exact hget

end Keeps

/-! ## Making directories -/

theorem keeps_makeAlong (t : FileTree) (s : Spot) (names : List String) :
    Keeps P t (t.makeAlong s names).1 := by
  induction names generalizing t s with
  | nil => exact .refl P t
  | cons name names ih =>
    rw [makeAlong]
    split
    · exact ih t (s.step name)
    · exact .refl P t
    · next hnone =>
      -- A directory is put only where nothing was.
      have hput : Keeps P t (t.put (s.step name) .directory) :=
        .put fun e he => by simp [hnone] at he
      exact hput.trans (ih _ _)

theorem keeps_makeDirectory (t : FileTree) (path : String) :
    Keeps P t (t.makeDirectory path).1 := by
  unfold makeDirectory
  dsimp only
  split
  · exact keeps_makeAlong t _ (Path.segments path)
  · exact .refl P t

/-! ## Writing a file -/

/-- A file is written at the spot of its path, where no directory may be, or nothing changes. -/
theorem write_cases (t : FileTree) (path : String) (c : ByteArray) :
    t.write path c = (t, false) ∨
      ∃ s, t.spot? path = some s ∧ s ≠ [] ∧ meansDirectory path = false ∧
        t.isDirectoryAt s = false ∧ t.write path c = (t.put s (.file c), true) := by
  unfold write
  cases hspot : t.spot? path with
  | none => exact .inl rfl
  | some s =>
    dsimp only
    split
    · exact .inl rfl
    · next hfree =>
      simp only [Bool.or_eq_true, decide_eq_true_eq, Bool.not_eq_true', not_or] at hfree
      obtain ⟨⟨⟨hfile, hne⟩, -⟩, hdir⟩ := hfree
      exact .inr ⟨s, rfl, hne, Bool.eq_false_iff.mpr hfile, Bool.eq_false_iff.mpr hdir, rfl⟩

theorem keeps_put_file {c : ByteArray} (hs : P s) (hdir : t.isDirectoryAt s = false) :
    Keeps P t (t.put s (.file c)) := by
  refine .put fun e he => ⟨hs, ?_⟩
  rintro rfl
  rw [isDirectoryAt_iff.mpr he] at hdir
  contradiction

theorem keeps_write (t : FileTree) (path : String) (c : ByteArray) :
    Keeps (· = Path.place t.home path) t (t.write path c).1 := by
  rcases write_cases t path c with heq | ⟨s, hspot, -, -, hdir, heq⟩
  · rw [heq]
    exact .refl _ t
  · rw [heq]
    exact keeps_put_file (eq_place_of_spot? hspot) hdir

theorem read?_write {path : String} {c : ByteArray} (h : t.write path c = (t', true)) :
    t'.read? path = some c := by
  rcases write_cases t path c with heq | ⟨s, hspot, hne, hfile, hdir, heq⟩
  · rw [heq] at h
    cases h
  · rw [heq] at h
    cases h
    -- The entries on the way to the file are directories, which stay.
    have hkeeps : Keeps (· = s) t (t.put s (.file c)) := keeps_put_file rfl hdir
    exact read?_eq_some_iff.mpr ⟨hfile, s, hkeeps.spot? hspot, get?_put_self t _ hne⟩

/-! ## Names -/

/-- Names that a path can have lead to every entry and to the working directory. -/
structure IsNamed (t : FileTree) : Prop where
  entries : ∀ e ∈ t.entries, ∀ name ∈ e.1, Path.IsName name
  home : ∀ name ∈ t.home, Path.IsName name

theorem IsNamed.put {e : Entry} (h : t.IsNamed) (hs : ∀ name ∈ s, Path.IsName name) :
    (t.put s e).IsNamed where
  entries := List.forall_mem_cons.mpr ⟨hs, fun e' he' => h.entries e' (List.mem_of_mem_filter he')⟩
  home := h.home

theorem IsNamed.start (h : t.IsNamed) (path : String) :
    ∀ name ∈ Path.start t.home path, Path.IsName name := by
  unfold Path.start
  split
  · exact List.forall_mem_nil _
  · exact h.home

theorem isName_of_mem_segments {path name : String} (h : name ∈ Path.segments path)
    (hup : name ≠ "..") : Path.IsName name := by
  have hkept : name ≠ "" ∧ name ≠ "." := by
    simpa using (List.mem_filter.mp h).2
  exact ⟨Path.noSlash_of_mem_segments h, hkept.1, hkept.2, hup⟩

theorem isName_step {first : String} (hs : ∀ name ∈ s, Path.IsName name)
    (hfirst : first ≠ ".." → Path.IsName first) : ∀ name ∈ s.step first, Path.IsName name := by
  unfold Spot.step
  split
  · exact fun name hmem => hs name (List.dropLast_subset s hmem)
  · next hup =>
    rw [List.forall_mem_append, List.forall_mem_singleton]
    exact ⟨hs, hfirst hup⟩

theorem isName_of_follow? {names : List String} (h : t.follow? s names = some s')
    (hs : ∀ name ∈ s, Path.IsName name)
    (hnames : ∀ name ∈ names, name ≠ ".." → Path.IsName name) : ∀ name ∈ s', Path.IsName name := by
  induction names generalizing s with
  | nil =>
    cases h
    exact hs
  | cons first names ih =>
    rw [List.forall_mem_cons] at hnames
    rw [FileTree.follow?] at h
    split at h
    · exact ih h (isName_step hs hnames.1) hnames.2
    · cases h

theorem IsNamed.write (h : t.IsNamed) (path : String) (c : ByteArray) :
    (t.write path c).1.IsNamed := by
  rcases write_cases t path c with heq | ⟨s, hspot, -, -, -, heq⟩
  · rw [heq]
    exact h
  · rw [heq]
    obtain ⟨-, hfollow⟩ := spot?_eq_some_iff.mp hspot
    exact h.put (isName_of_follow? hfollow (h.start path) fun _ => isName_of_mem_segments)

theorem IsNamed.makeAlong {names : List String} (h : t.IsNamed)
    (hs : ∀ name ∈ s, Path.IsName name)
    (hnames : ∀ name ∈ names, name ≠ ".." → Path.IsName name) : (t.makeAlong s names).1.IsNamed := by
  induction names generalizing t s with
  | nil => exact h
  | cons first names ih =>
    rw [List.forall_mem_cons] at hnames
    have hnext := isName_step hs hnames.1
    unfold FileTree.makeAlong
    dsimp only
    split
    · exact ih h hnext hnames.2
    · exact h
    · exact ih (h.put hnext) hnext hnames.2

theorem IsNamed.makeDirectory (h : t.IsNamed) (path : String) :
    (t.makeDirectory path).1.IsNamed := by
  unfold FileTree.makeDirectory
  dsimp only
  split
  · exact h.makeAlong (h.start path) fun _ => isName_of_mem_segments
  · exact h

end FileTree

end NodeAtlas
