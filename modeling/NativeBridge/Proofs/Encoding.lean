import NativeBridge.Proofs.Table.Sound

/-!
# The encoding of handles

A handle is a pair of a slot index and a generation, packed into one word. Packing loses nothing and
reaches every word, the order of the words is the lexicographic order of the pairs, and the text of
a handle determines it (`handle_encoding`).

The text is an index and a generation in decimal, with a letter between them. No decimal has that
letter, so that it can be cut there in one way only (`eq_of_parts_eq`), and a decimal determines its
number (`toDigits_inj`).
-/

namespace NativeBridge

namespace Handle

variable {h k : Handle}

/-! ### Words as pairs -/

theorem toNat_bits (h : Handle) :
    h.bits.toNat = h.index.toNat * 4294967296 + h.generation.toNat := by
  rw [toNat_index, toNat_generation]
  omega

/-- Handles are ordered by index, and by generation where the index is the same. -/
theorem lt_iff_lex :
    h < k ↔ h.index < k.index ∨ h.index = k.index ∧ h.generation < k.generation := by
  have hg := h.generation.toNat_lt
  have kg := k.generation.toNat_lt
  refine UInt64.lt_iff_toNat_lt.trans ?_
  rw [toNat_bits, toNat_bits, UInt32.lt_iff_toNat_lt, UInt32.lt_iff_toNat_lt, ← UInt32.toNat_inj]
  omega

theorem le_iff_lex :
    h ≤ k ↔ h.index < k.index ∨ h.index = k.index ∧ h.generation ≤ k.generation := by
  have hg := h.generation.toNat_lt
  have kg := k.generation.toNat_lt
  refine UInt64.le_iff_toNat_le.trans ?_
  rw [toNat_bits, toNat_bits, UInt32.lt_iff_toNat_lt, UInt32.le_iff_toNat_le, ← UInt32.toNat_inj]
  omega

theorem isNull_iff_parts : h.isNull = true ↔ h.index = 0 ∧ h.generation = 0 := by
  rw [isNull_iff]
  refine ⟨fun hn => hn ▸ ⟨index_null, generation_null⟩, fun ⟨hi, hg⟩ => ?_⟩
  exact ext_parts (hi.trans index_null.symm) (hg.trans generation_null.symm)

/-- Slot zero has handles too: what is null is told by the generation. -/
theorem isNull_eq_false_of_generation (hg : 1 ≤ h.generation) : h.isNull = false := by
  rw [Bool.eq_false_iff, ne_eq, isNull_iff_parts]
  rintro ⟨-, hzero⟩
  rw [hzero] at hg
  exact absurd hg (by decide)

/-! ### Text -/

/-- A decimal determines its number. -/
theorem toDigits_inj {m n : ℕ} : Nat.toDigits 10 m = Nat.toDigits 10 n ↔ m = n := by
  refine ⟨fun hd => ?_, congrArg _⟩
  have hread := congrArg (fun ds => Nat.ofDigitChars 10 ds 0) hd
  simpa using hread

theorem separator_notMem_toDigits (n : ℕ) : 'v' ∉ Nat.toDigits 10 n := by
  intro hv
  have hdigit := Nat.isDigit_of_mem_toDigits (by decide) (by decide) hv
  exact absurd hdigit (by decide)

/-- The characters between the parentheses of a text. -/
def partsText (h : Handle) : List Char :=
  Nat.toDigits 10 h.index.toNat ++ 'v' :: Nat.toDigits 10 h.generation.toNat

theorem eq_of_parts_eq (hparts : h.partsText = k.partsText) : h = k := by
  obtain ⟨hindex, -, hgeneration⟩ := (List.append_cons_inj_of_notMem
    (separator_notMem_toDigits _) (separator_notMem_toDigits _)).mp hparts
  exact ext_parts (UInt32.toNat_inj.mp (toDigits_inj.mp hindex))
    (UInt32.toNat_inj.mp (toDigits_inj.mp hgeneration))

theorem toList_text (hn : h.isNull = false) :
    h.text.toList = "Handle(".toList ++ (h.partsText ++ ")".toList) := by
  simp [text, hn, partsText, toString, Nat.toList_repr]

/-- The word for null has another character where all other texts have a parenthesis. -/
theorem text_eq_null_iff : h.text = "Handle::NULL" ↔ h = null := by
  refine ⟨fun ht => ?_, fun hn => hn ▸ rfl⟩
  by_contra hne
  have hn : h.isNull = false := by rwa [Bool.eq_false_iff, ne_eq, isNull_iff]
  have hlist := congrArg String.toList ht
  rw [toList_text hn] at hlist
  simp at hlist

theorem text_inj : h.text = k.text ↔ h = k := by
  refine ⟨fun ht => ?_, congrArg text⟩
  by_cases hk : k = null
  · rw [hk] at ht ⊢
    exact text_eq_null_iff.mp ht
  · have hh : ¬ h = null := by
      rintro rfl
      exact hk (text_eq_null_iff.mp ht.symm)
    have hlist := congrArg String.toList ht
    rw [← isNull_iff, Bool.not_eq_true] at hh hk
    rw [toList_text hh, toList_text hk] at hlist
    exact eq_of_parts_eq (List.append_cancel_right (List.append_cancel_left hlist))

end Handle

open Handle (ofParts)

/-- **The encoding of handles.**

* A handle is packed from an index and a generation, from which both can be taken out again, and
  every handle is packed from its own index and generation.
* The order of handles is the lexicographic order of index and generation.
* A handle is null exactly if both parts are zero. So no handle of a generation from one on is null,
  not even that of slot zero.
* Two handles have the same text exactly if they are the same, and the word for null is the text of
  the null handle only. -/
theorem handle_encoding :
    (∀ i g, (ofParts i g).index = i ∧ (ofParts i g).generation = g) ∧
    (∀ h : Handle, ofParts h.index h.generation = h) ∧
    (∀ h k : Handle,
      (h < k ↔ h.index < k.index ∨ h.index = k.index ∧ h.generation < k.generation) ∧
      (h ≤ k ↔ h.index < k.index ∨ h.index = k.index ∧ h.generation ≤ k.generation)) ∧
    (∀ h : Handle, h.isNull = true ↔ h.index = 0 ∧ h.generation = 0) ∧
    (∀ h : Handle, 1 ≤ h.generation → h.isNull = false) ∧
    (∀ h k : Handle, h.text = k.text ↔ h = k) ∧
    ∀ h : Handle, h.text = "Handle::NULL" ↔ h = Handle.null := by
  refine ⟨fun i g => ⟨Handle.index_ofParts i g, Handle.generation_ofParts i g⟩,
    Handle.ofParts_index_generation, fun h k => ⟨Handle.lt_iff_lex, Handle.le_iff_lex⟩,
    fun h => Handle.isNull_iff_parts, fun h hg => Handle.isNull_eq_false_of_generation hg,
    fun h k => Handle.text_inj, fun h => Handle.text_eq_null_iff⟩

/-- The first handle that a table mints is not null, and its text is not the word for it. -/
theorem handle_encoding_slotZero :
    1 ≤ (ofParts 0 1).generation ∧ (ofParts 0 1).isNull = false ∧
      (ofParts 0 1).text ≠ "Handle::NULL" := by
  obtain ⟨-, -, -, -, hnull, -, htext⟩ := handle_encoding
  have hg : 1 ≤ (ofParts 0 1).generation := by decide
  exact ⟨hg, hnull _ hg, fun he => absurd ((htext _).mp he) (by decide)⟩

end NativeBridge
