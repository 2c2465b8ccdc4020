import Mathlib
import NodeAtlas.Proofs.Files.Change
import NodeAtlas.Proofs.Program.Steps

/-!
Writing outputs and checking them. Once outputs are written, each file has the contents of its output
unless a later one for the same place has others, so a check finds nothing if no two outputs have
different contents for one place. A check in any tree finds the outputs whose files are missing or have
other bytes, as far as digests tell these bytes from those of the outputs.
-/

namespace NodeAtlas

namespace Generation

variable {t t' : FileTree} {o : Output} {os : List Output}

/-! ## Writing -/

/-- Making the directories above an output loses nothing. Then its file is written, unless they could
not be made. -/
theorem writeOne_cases (t : FileTree) (o : Output) :
    ∃ t₁, (∀ P, t.Keeps P t₁) ∧
      (writeOne t o = (t₁, some (.noDirectory (Path.parent o.path))) ∨
        writeOne t o = ((t₁.write o.path o.bytes).1,
          if (t₁.write o.path o.bytes).2 then none else some (.unwritable o.path))) := by
  have hkeeps (P : Spot → Prop) : t.Keeps P (if Path.parent o.path = "" then (t, true)
      else t.makeDirectory (Path.parent o.path)).1 := by
    split
    · exact .refl P t
    · exact t.keeps_makeDirectory _
  unfold writeOne
  dsimp only
  generalize (if Path.parent o.path = "" then (t, true)
    else t.makeDirectory (Path.parent o.path)) = directories at hkeeps ⊢
  obtain ⟨t₁, made⟩ := directories
  refine ⟨t₁, hkeeps, ?_⟩
  cases made with
  | false => exact .inl rfl
  | true => exact .inr rfl

theorem keeps_writeOne (t : FileTree) (o : Output) :
    t.Keeps (· = Path.place t.home o.path) (writeOne t o).1 := by
  obtain ⟨t₁, hkeeps, heq | heq⟩ := writeOne_cases t o
  · rw [heq]
    exact hkeeps _
  · rw [heq]
    have hhome : t₁.home = t.home := (hkeeps fun _ => False).home
    exact (hkeeps _).trans (hhome ▸ t₁.keeps_write o.path o.bytes)

theorem read?_writeOne (h : writeOne t o = (t', none)) : t'.read? o.path = some o.bytes := by
  obtain ⟨t₁, -, heq | heq⟩ := writeOne_cases t o
  · rw [heq] at h
    cases h
  · rw [heq] at h
    obtain ⟨htree, hwritten⟩ := Prod.mk.inj h
    exact FileTree.read?_write (Prod.ext htree (by simpa using hwritten))

theorem of_write_cons (h : write t (o :: os) = (t', none)) :
    ∃ t₁, t.Keeps (· = Path.place t.home o.path) t₁ ∧ writeOne t o = (t₁, none) ∧
      write t₁ os = (t', none) := by
  have hkeeps := keeps_writeOne t o
  rw [write] at h
  split at h
  · next t₁ hone =>
    rw [hone] at hkeeps
    exact ⟨t₁, hkeeps, hone, h⟩
  · cases h

theorem home_write (h : write t os = (t', none)) : t'.home = t.home := by
  induction os generalizing t with
  | nil =>
    cases h
    rfl
  | cons o os ih =>
    obtain ⟨t₁, hkeeps, -, hrest⟩ := of_write_cons h
    exact (ih hrest).trans hkeeps.home

/-- Writing one output leaves the contents of another one in its file, unless the two have different
contents for one place. -/
theorem read?_writeOne_of_read? {o' : Output} (hread : t.read? o.path = some o.bytes)
    (hkeeps : t.Keeps (· = Path.place t.home o'.path) t') (h : writeOne t o' = (t', none))
    (hbytes : Path.Meets t.home o.path o'.path → o.bytes = o'.bytes) :
    t'.read? o.path = some o.bytes := by
  by_cases hmeets : Path.Meets t.home o.path o'.path
  · -- The file is that of both, and what has just been written is what it had.
    obtain ⟨hfile, s, hold, -⟩ := FileTree.read?_eq_some_iff.mp hread
    obtain ⟨-, s', hspot', hget⟩ := FileTree.read?_eq_some_iff.mp (read?_writeOne h)
    have hspot : t'.spot? o.path = some s := hkeeps.spot? hold
    have hs : s = s' := FileTree.eq_of_meets (hkeeps.home ▸ hmeets) hspot hspot'
    rw [← hs, ← hbytes hmeets] at hget
    exact FileTree.read?_eq_some_iff.mpr ⟨hfile, s, hspot, hget⟩
  · exact hkeeps.read? hread hmeets

theorem read?_write_of_read? (hread : t.read? o.path = some o.bytes) (h : write t os = (t', none))
    (hbytes : ∀ o' ∈ os, Path.Meets t.home o.path o'.path → o.bytes = o'.bytes) :
    t'.read? o.path = some o.bytes := by
  induction os generalizing t with
  | nil =>
    cases h
    exact hread
  | cons first os ih =>
    obtain ⟨t₁, hkeeps, hone, hrest⟩ := of_write_cons h
    rw [List.forall_mem_cons] at hbytes
    refine ih (read?_writeOne_of_read? hread hkeeps hone hbytes.1) hrest ?_
    rw [hkeeps.home]
    exact hbytes.2

/-- A file has the contents of an output if no later one has others for its place. -/
theorem read?_write {front back : List Output} (h : write t (front ++ o :: back) = (t', none))
    (hback : ∀ o' ∈ back, Path.Meets t.home o.path o'.path → o.bytes = o'.bytes) :
    t'.read? o.path = some o.bytes := by
  induction front generalizing t with
  | nil =>
    obtain ⟨t₁, hkeeps, hone, hrest⟩ := of_write_cons h
    exact read?_write_of_read? (read?_writeOne hone) hrest (hkeeps.home ▸ hback)
  | cons first front ih =>
    obtain ⟨t₁, hkeeps, -, hrest⟩ := of_write_cons h
    exact ih hrest (hkeeps.home ▸ hback)

/-- No two outputs have different contents for one place. -/
def Agree (home : Spot) (os : List Output) : Prop :=
  os.Pairwise fun a b => Path.Meets home a.path b.path → a.bytes = b.bytes

instance {home : Spot} : Decidable (Agree home os) := List.instDecidablePairwise os

theorem read?_of_write (h : write t os = (t', none)) (hagree : Agree t.home os) :
    ∀ o ∈ os, t'.read? o.path = some o.bytes := by
  intro o ho
  obtain ⟨front, back, rfl⟩ := List.append_of_mem ho
  exact read?_write h (List.pairwise_cons.mp (List.pairwise_append.mp hagree).2.1).1

/-! ## Checking -/

/-- How the file of an output differs from it, by bytes. -/
def difference? (t : FileTree) (o : Output) : Option Staleness :=
  match t.read? o.path with
  | none => some .missing
  | some bytes => if bytes = o.bytes then none else some .outdated

/-- The outputs whose files differ from them, in order. -/
def differing (t : FileTree) (os : List Output) : List (Output × Staleness) :=
  os.filterMap fun o => (difference? t o).map (o, ·)

/-- No file has the digest of its output but not the bytes. -/
def DigestsTellApart (t : FileTree) (os : List Output) : Prop :=
  ∀ o ∈ os, ∀ bytes ∈ t.read? o.path,
    Digest.ofBytes bytes.toList = Digest.ofBytes o.bytes.toList → bytes = o.bytes

instance : Decidable (DigestsTellApart t os) :=
  inferInstanceAs (Decidable (∀ o ∈ os, ∀ bytes ∈ t.read? o.path,
    Digest.ofBytes bytes.toList = Digest.ofBytes o.bytes.toList → bytes = o.bytes))

/-- The file of an output can be read, or there is none. -/
def Accessible (t : FileTree) (o : Output) : Prop :=
  (t.read? o.path).isSome = true ∨ t.isMissing o.path = true

instance : Decidable (Accessible t o) :=
  inferInstanceAs (Decidable ((t.read? o.path).isSome = true ∨ t.isMissing o.path = true))

/-- The file of an output is missing or has other contents. -/
def IsStale (t : FileTree) (o : Output) : Prop :=
  t.isMissing o.path = true ∨ ∃ bytes, t.read? o.path = some bytes ∧ bytes ≠ o.bytes

theorem difference?_eq_none_iff : difference? t o = none ↔ t.read? o.path = some o.bytes := by
  unfold difference?
  cases t.read? o.path with
  | none => simp
  | some bytes => simp

theorem differing_eq_nil_iff :
    differing t os = [] ↔ ∀ o ∈ os, t.read? o.path = some o.bytes := by
  simp [differing, List.filterMap_eq_nil_iff, difference?_eq_none_iff]

theorem isStale_iff (h : Accessible t o) : IsStale t o ↔ t.read? o.path ≠ some o.bytes := by
  constructor
  · rintro (hmissing | ⟨bytes, hread, hne⟩)
    · rw [FileTree.read?_of_isMissing hmissing]
      exact nofun
    · rw [hread]
      exact fun heq => hne (Option.some.inj heq)
  · intro hread
    rcases h with hsome | hmissing
    · obtain ⟨bytes, hbytes⟩ := Option.isSome_iff_exists.mp hsome
      exact .inr ⟨bytes, hbytes, fun heq => hread (heq ▸ hbytes)⟩
    · exact .inl hmissing

theorem accessible_of_staleness? {found : Option Staleness} (h : staleness? t o = .ok found) :
    Accessible t o := by
  unfold staleness? at h
  split at h
  · next bytes hread => exact .inl (by rw [hread]; rfl)
  · split at h
    · next hmissing => exact .inr hmissing
    · cases h

theorem staleness?_eq (haccess : Accessible t o)
    (hdigest : ∀ bytes ∈ t.read? o.path,
      Digest.ofBytes bytes.toList = Digest.ofBytes o.bytes.toList → bytes = o.bytes) :
    staleness? t o = .ok (difference? t o) := by
  unfold staleness? difference?
  cases hread : t.read? o.path with
  | none =>
    rcases haccess with hsome | hmissing
    · rw [hread] at hsome
      contradiction
    · simp [hmissing]
  | some bytes =>
    have hsame : Digest.ofBytes bytes.toList = Digest.ofBytes o.bytes.toList ↔ bytes = o.bytes :=
      ⟨hdigest bytes hread, fun heq => heq ▸ rfl⟩
    simp [hsame]

theorem check_cons (t : FileTree) (o : Output) (os : List Output) :
    check t (o :: os) = staleness? t o >>= fun found =>
      check t os >>= fun others => .ok ((found.map (o, ·)).toList ++ others) := rfl

/-- A check that succeeds can look at every file. -/
theorem accessible_of_check {stale : List (Output × Staleness)} (h : check t os = .ok stale) :
    ∀ o ∈ os, Accessible t o := by
  induction os generalizing stale with
  | nil => exact fun o ho => absurd ho List.not_mem_nil
  | cons o os ih =>
    rw [check_cons, bind_eq_ok_iff] at h
    obtain ⟨found, hone, h⟩ := h
    obtain ⟨others, hrest, -⟩ := bind_eq_ok_iff.mp h
    rw [List.forall_mem_cons]
    exact ⟨accessible_of_staleness? hone, ih hrest⟩

theorem check_eq (haccess : ∀ o ∈ os, Accessible t o) (hdigest : DigestsTellApart t os) :
    check t os = .ok (differing t os) := by
  induction os with
  | nil => rfl
  | cons o os ih =>
    rw [DigestsTellApart, List.forall_mem_cons] at hdigest
    rw [List.forall_mem_cons] at haccess
    rw [check_cons, staleness?_eq haccess.1 hdigest.1, ih haccess.2 hdigest.2, differing, differing,
      List.filterMap_cons]
    cases difference? t o <;> rfl

/-- A check finds something exactly if some output is stale. -/
theorem check_ne_nil_iff {stale : List (Output × Staleness)} (h : check t os = .ok stale)
    (hdigest : DigestsTellApart t os) : stale ≠ [] ↔ ∃ o ∈ os, IsStale t o := by
  have haccess := accessible_of_check h
  rw [check_eq haccess hdigest] at h
  rw [← Except.ok.inj h, Ne, differing_eq_nil_iff, not_forall₂]
  simp only [exists_prop]
  exact exists_congr fun o => and_congr_right fun ho => (isStale_iff (haccess o ho)).symm

/-- Outputs whose files have their contents have the same contents for one place. -/
theorem agree_of_read? (h : ∀ o ∈ os, t.read? o.path = some o.bytes) : Agree t.home os := by
  refine List.pairwise_of_forall_mem_list fun a ha b hb hmeets => ?_
  obtain ⟨-, s, hspot, hget⟩ := FileTree.read?_eq_some_iff.mp (h a ha)
  obtain ⟨-, s', hspot', hget'⟩ := FileTree.read?_eq_some_iff.mp (h b hb)
  rw [← FileTree.eq_of_meets hmeets hspot hspot'] at hget'
  exact Entry.file.inj (Option.some.inj (hget.symm.trans hget'))

/-- Once outputs are written, a check of them finds nothing if no two of them have different contents
for one place, and only then. A check leaves the files alone, whatever it finds, and finds the outputs
whose files are missing or have other contents, in order. -/
theorem check_write (t : FileTree) (os : List Output) :
    (∀ t', write t os = (t', none) →
      (Agree t.home os → check t' os = .ok []) ∧
      (DigestsTellApart t' os → check t' os = .ok [] → Agree t.home os)) ∧
    ((∀ o ∈ os, Accessible t o) → DigestsTellApart t os → check t os = .ok (differing t os)) ∧
    ∀ options w, Program.Leads (Program.check options os) w fun _ t' => t' = w.tree := by
  refine ⟨fun t' hwrite => ⟨fun hagree => ?_, fun hdigest hcheck => ?_⟩, check_eq,
    fun options w => (Program.leads_check options os w).1⟩
  · have hread := read?_of_write hwrite hagree
    have haccess : ∀ o ∈ os, Accessible t' o := fun o ho => .inl (by rw [hread o ho]; rfl)
    have hdigest : DigestsTellApart t' os := fun o ho bytes hbytes _ =>
      Option.some.inj (hbytes.symm.trans (hread o ho))
    rw [check_eq haccess hdigest, differing_eq_nil_iff.mpr hread]
  · rw [check_eq (accessible_of_check hcheck) hdigest] at hcheck
    rw [← home_write hwrite]
    exact agree_of_read? (differing_eq_nil_iff.mp (Except.ok.inj hcheck))

def twoPages : List Output := [⟨"/w/nested/a.md", "# A\n"⟩, ⟨"./nested/b.md", "# B\n"⟩]

/-- A working directory that lacks the first of the pages and has another second one. -/
def edited : FileTree where
  entries := [(["w"], .directory), (["w", "nested"], .directory),
    (["w", "nested", "b.md"], .file "# edited\n".toUTF8)]
  home := ["w"]

theorem check_write_twoPages :
    (∃ t', write edited twoPages = (t', none) ∧ check t' twoPages = .ok []) ∧
      (∀ o ∈ twoPages, Accessible edited o) ∧ DigestsTellApart edited twoPages ∧
      check edited twoPages =
        .ok [(⟨"/w/nested/a.md", "# A\n"⟩, .missing), (⟨"./nested/b.md", "# B\n"⟩, .outdated)] := by
  have hwritten : (write edited twoPages).2 = none := by
    decide +kernel
  have hwrite : write edited twoPages = ((write edited twoPages).1, none) := by
    rw [← hwritten]
  have hagree : Agree edited.home twoPages := by
    decide +kernel
  have haccess : ∀ o ∈ twoPages, Accessible edited o := by
    decide +kernel
  have hdigest : DigestsTellApart edited twoPages := by
    decide +kernel
  have hdiffering : differing edited twoPages =
      [(⟨"/w/nested/a.md", "# A\n"⟩, .missing), (⟨"./nested/b.md", "# B\n"⟩, .outdated)] := by
    decide +kernel
  obtain ⟨hwritten, hfound, -⟩ := check_write edited twoPages
  exact ⟨⟨_, hwrite, (hwritten _ hwrite).1 hagree⟩, haccess, hdigest,
    hdiffering ▸ hfound haccess hdigest⟩

/-- Pages for one place, which is spelled in two ways. -/
def onePlace : List Output := [⟨"a.md", "# A\n"⟩, ⟨"./a.md", "# B\n"⟩]

/-- The paths are different, but the second page takes the place of the first. -/
theorem check_write_onePlace :
    (onePlace.Pairwise fun a b => Path.same a.path b.path = false) ∧
      ∃ t', write {} onePlace = (t', none) ∧
        check t' onePlace = .ok [(⟨"a.md", "# A\n"⟩, .outdated)] := by
  have hwritten : (write {} onePlace).2 = none := by
    decide +kernel
  have hwrite : write {} onePlace = ((write {} onePlace).1, none) := by
    rw [← hwritten]
  have hchecked : check (write {} onePlace).1 onePlace =
      .ok [(⟨"a.md", "# A\n"⟩, .outdated)] := by
    decide +kernel
  exact ⟨by decide +kernel, _, hwrite, hchecked⟩

end Generation

end NodeAtlas
