import Mathlib.Data.List.Induction
import NodeAtlas.Proofs.Text.Offsets

/-!
Tests on bytes. A character below 128 is encoded as one byte with its number, and all bytes of other
characters are above, so a test on characters below 128 can be made on bytes.
-/

namespace NodeAtlas.Text

def IsAscii (c : Char) : Prop := c.toNat < 128

instance (c : Char) : Decidable (IsAscii c) := inferInstanceAs (Decidable (c.toNat < 128))

theorem utf8EncodeChar_ascii {c : Char} (h : IsAscii c) : String.utf8EncodeChar c = [c.toUInt8] := by
  have hle : c.val.toNat ≤ 127 := Nat.le_of_lt_succ h
  simp only [String.utf8EncodeChar, hle, if_true]
  rfl

theorem utf8Size_ascii {c : Char} (h : IsAscii c) : c.utf8Size = 1 := by
  rw [← String.length_utf8EncodeChar, utf8EncodeChar_ascii h]
  rfl

theorem utf8_cons_ascii {c : Char} (hc : IsAscii c) (rest : List Char) :
    utf8 (c :: rest) = c.toUInt8 :: utf8 rest := by
  rw [utf8_cons, utf8EncodeChar_ascii hc, List.singleton_append]

theorem le_toNat_of_mem_wide {c : Char} (h : ¬ IsAscii c) {b : UInt8}
    (hb : b ∈ String.utf8EncodeChar c) : 128 ≤ b.toNat := by
  have hwide : ¬ c.val.toNat ≤ 127 := fun hle => h (Nat.lt_succ_of_le hle)
  unfold String.utf8EncodeChar at hb
  simp only [hwide, if_false] at hb
  split at hb
  · simp only [List.mem_cons, List.not_mem_nil, or_false] at hb
    rcases hb with rfl | rfl <;> simp <;> omega
  split at hb
  · simp only [List.mem_cons, List.not_mem_nil, or_false] at hb
    rcases hb with rfl | rfl | rfl <;> simp <;> omega
  · simp only [List.mem_cons, List.not_mem_nil, or_false] at hb
    rcases hb with rfl | rfl | rfl | rfl <;> simp <;> omega

theorem toNat_ofUInt8 (b : UInt8) : (Char.ofUInt8 b).toNat = b.toNat := by
  show b.toUInt32.toNat = b.toNat
  exact UInt8.toNat_toUInt32 b

theorem toNat_toUInt8 {c : Char} (h : IsAscii c) : c.toUInt8.toNat = c.toNat := by
  show c.val.toUInt8.toNat = c.val.toNat
  rw [UInt32.toNat_toUInt8]
  exact Nat.mod_eq_of_lt (Nat.lt_of_lt_of_le h (by decide))

theorem ofUInt8_toUInt8 {c : Char} (h : IsAscii c) : Char.ofUInt8 c.toUInt8 = c := by
  apply Char.toNat_inj.mp
  rw [toNat_ofUInt8, toNat_toUInt8 h]

theorem toUInt8_inj {c d : Char} (hc : IsAscii c) (hd : IsAscii d) :
    c.toUInt8 = d.toUInt8 ↔ c = d := by
  refine ⟨fun h => ?_, congrArg Char.toUInt8⟩
  rw [← ofUInt8_toUInt8 hc, ← ofUInt8_toUInt8 hd, h]

theorem ne_toUInt8 {b : UInt8} (hb : 128 ≤ b.toNat) {c : Char} (hc : IsAscii c) :
    b ≠ c.toUInt8 := by
  rintro rfl
  rw [toNat_toUInt8 hc] at hb
  exact absurd hc (Nat.not_lt.mpr hb)

theorem le_toNat_of_isContinuation {b : UInt8} (h : isContinuation b = true) : 128 ≤ b.toNat := by
  rw [← UInt8.ofNat_toNat (x := b), isContinuation_ofNat b.toNat_lt, Bool.and_eq_true,
    decide_eq_true_iff] at h
  exact h.1

/-- A character below 128 has no byte in common with another one. -/
theorem ne_toUInt8_of_mem {c d : Char} (hd : IsAscii d) (hne : c ≠ d) {b : UInt8}
    (hb : b ∈ String.utf8EncodeChar c) : b ≠ d.toUInt8 := by
  by_cases hc : IsAscii c
  · rw [utf8EncodeChar_ascii hc, List.mem_singleton] at hb
    rw [hb]
    exact mt (toUInt8_inj hc hd).mp hne
  · exact ne_toUInt8 (le_toNat_of_mem_wide hc hb) hd

/-! ## Tests -/

/-- A test on bytes that is, on each byte of a character, a test on the character. -/
def Agrees (f : UInt8 → Bool) (p : Char → Bool) : Prop :=
  ∀ c, ∀ b ∈ String.utf8EncodeChar c, f b = p c

theorem test_ofUInt8_wide {p : Char → Bool} (hp : ∀ c, p c = true → IsAscii c) {b : UInt8}
    (hb : 128 ≤ b.toNat) : p (.ofUInt8 b) = false := by
  rw [Bool.eq_false_iff]
  intro hpass
  have hascii := hp _ hpass
  rw [IsAscii, toNat_ofUInt8] at hascii
  exact absurd hascii (Nat.not_lt.mpr hb)

theorem agrees_of_ascii {p : Char → Bool} (hp : ∀ c, p c = true → IsAscii c) :
    Agrees (fun b => p (.ofUInt8 b)) p := by
  intro c b hb
  show p (.ofUInt8 b) = p c
  by_cases hc : IsAscii c
  · rw [utf8EncodeChar_ascii hc, List.mem_singleton] at hb
    rw [hb, ofUInt8_toUInt8 hc]
  · rw [test_ofUInt8_wide hp (le_toNat_of_mem_wide hc hb), Bool.eq_false_iff.mpr (mt (hp c) hc)]

theorem Agrees.not {f : UInt8 → Bool} {p : Char → Bool} (h : Agrees f p) :
    Agrees (fun b => !f b) fun c => !p c :=
  fun c b hb => congrArg Bool.not (h c b hb)

theorem Agrees.all_eq {f : UInt8 → Bool} {p : Char → Bool} (h : Agrees f p) (c : Char) :
    (String.utf8EncodeChar c).all f = p c := by
  obtain ⟨b, more, hbytes, -⟩ := utf8EncodeChar_eq_cons c
  have hb : f b = p c := h c b (hbytes ▸ List.mem_cons_self)
  have hmore : ∀ b' ∈ more, f b' = p c := fun b' hb' => h c b' (hbytes ▸ List.mem_cons_of_mem b hb')
  rw [hbytes, List.all_cons, hb]
  cases hc : p c with
  | false => rfl
  | true => exact List.all_eq_true.mpr fun b' hb' => (hmore b' hb').trans hc

theorem takeWhile_utf8 {f : UInt8 → Bool} {p : Char → Bool} (h : Agrees f p) (s : List Char) :
    (utf8 s).takeWhile f = utf8 (s.takeWhile p) := by
  induction s with
  | nil => rfl
  | cons c s ih =>
    rw [utf8_cons, List.takeWhile_cons]
    cases hc : p c with
    | true =>
      rw [List.takeWhile_append_of_pos fun b hb => (h c b hb).trans hc, ih, if_pos rfl, utf8_cons]
    | false =>
      obtain ⟨b, more, hbytes, -⟩ := utf8EncodeChar_eq_cons c
      have hb : f b = false := (h c b (hbytes ▸ List.mem_cons_self)).trans hc
      rw [hbytes, List.cons_append, List.takeWhile_cons_of_neg (by simp [hb])]
      rfl

theorem Agrees.takeWhile_length {f : UInt8 → Bool} {p : Char → Bool} (h : Agrees f p)
    (s : List Char) : ((utf8 s).takeWhile f).length = byteLength (s.takeWhile p) := by
  rw [takeWhile_utf8 h, length_utf8]

/-! ## Beginnings and ends -/

section Ends

variable {d : Char} (hd : IsAscii d)
include hd

theorem head?_utf8 (s : List Char) : (utf8 s).head? = some d.toUInt8 ↔ s.head? = some d := by
  cases s with
  | nil => simp [utf8]
  | cons c s =>
    obtain ⟨b, more, hbytes, -⟩ := utf8EncodeChar_eq_cons c
    rw [utf8_cons, hbytes, List.cons_append, List.head?_cons, List.head?_cons, Option.some.injEq,
      Option.some.injEq]
    refine ⟨fun hb => ?_, ?_⟩
    · by_contra hne
      exact ne_toUInt8_of_mem hd hne (hbytes ▸ List.mem_cons_self) hb
    · rintro rfl
      rw [utf8EncodeChar_ascii hd] at hbytes
      exact (List.cons.inj hbytes).1.symm

theorem getLast?_utf8 (s : List Char) :
    (utf8 s).getLast? = some d.toUInt8 ↔ s.getLast? = some d := by
  induction s using List.reverseRecOn with
  | nil => simp [utf8]
  | append_singleton s c =>
    obtain ⟨b, more, hbytes, -⟩ := utf8EncodeChar_eq_cons c
    have hlast : (utf8 (s ++ [c])).getLast? = (String.utf8EncodeChar c).getLast? := by
      have hchar : utf8 [c] = b :: more := by simp [utf8, hbytes]
      rw [utf8_append, hchar, hbytes, List.getLast?_append_of_ne_nil _ (List.cons_ne_nil b more)]
    rw [hlast, List.getLast?_concat, Option.some.injEq]
    refine ⟨fun hb => ?_, ?_⟩
    · by_contra hne
      exact ne_toUInt8_of_mem hd hne (List.mem_of_getLast? hb) rfl
    · rintro rfl
      rw [utf8EncodeChar_ascii hd]
      rfl

end Ends

theorem forall_isAscii {mark : List Char} (h : (mark.all fun c => IsAscii c) = true) :
    ∀ c ∈ mark, IsAscii c :=
  fun c hc => of_decide_eq_true (List.all_eq_true.mp h c hc)

/-- A mark without wide characters can be looked for among the bytes. -/
theorem prefix_utf8_iff {mark : List Char} (hmark : ∀ c ∈ mark, IsAscii c) (s : List Char) :
    utf8 mark <+: utf8 s ↔ mark <+: s := by
  induction mark generalizing s with
  | nil => simp [utf8]
  | cons d mark ih =>
    obtain ⟨hd, hmark⟩ := List.forall_mem_cons.mp hmark
    rw [utf8_cons_ascii hd]
    constructor
    · rintro ⟨more, hmore⟩
      have hhead := (head?_utf8 hd s).mp (by rw [← hmore]; rfl)
      obtain ⟨rest, rfl⟩ := List.head?_eq_some_iff.mp hhead
      rw [utf8_cons_ascii hd] at hmore
      exact List.cons_prefix_cons.mpr ⟨rfl, (ih hmark rest).mp ⟨more, (List.cons.inj hmore).2⟩⟩
    · rintro ⟨more, rfl⟩
      rw [List.cons_append, utf8_cons_ascii hd]
      exact List.cons_prefix_cons.mpr ⟨rfl, (ih hmark _).mpr (List.prefix_append mark more)⟩

end NodeAtlas.Text
