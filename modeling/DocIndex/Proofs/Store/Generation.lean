import DocIndex.Proofs.Store.Mirror
import DocIndex.Proofs.Store.TemporaryFile

/-!
# Generations grow, up to the last one

A put answers the next revision of the one that the document carries, whatever the store holds (`rev_of_put`). Its
generation is one higher as long as that fits sixty-four bits, and zero behind the last one
(`generation_grows_iff`).
-/

namespace DocIndex

open Documents (revOf)
open Revision (generation generation? ofGeneration)

/-- What a put answers is the next revision of the one that the document carries, whatever the store holds. -/
theorem rev_of_put {document : Json} {suffix rev : String}
    (hput : (∃ documents, (Backend.memory.put suffix document documents).1 = .ok rev) ∨
      ∃ path faults fs, ((Backend.file path faults).put suffix document fs).1 = .ok rev) :
    rev = Revision.next (revOf document) suffix := by
  have hwrite : ∃ documents written, Documents.write suffix document documents = .ok (rev, written) := by
    rcases hput with ⟨documents, hmemory⟩ | ⟨path, faults, fs, hfile⟩
    · simp only [Backend.memory] at hmemory
      split at hmemory
      · rename_i answered written hwrite
        obtain rfl := Except.ok.inj hmemory
        exact ⟨documents, written, hwrite⟩
      · cases hmemory
    · have hread := FileStore.read_put path faults suffix document fs
      rw [show (FileStore.put path faults suffix document fs).1 = .ok rev from hfile] at hread
      obtain ⟨documents, written, -, hwrite, -⟩ := hread
      exact ⟨documents, written, hwrite⟩
  obtain ⟨documents, written, hwrite⟩ := hwrite
  obtain ⟨-, -, -, hrev, -⟩ := Documents.write_eq_ok_iff.mp hwrite
  exact hrev

/-- **Generations grow, up to the last one.** Let a document carry a revision that starts with a number of
sixty-four bits and a hyphen, and let a store in memory or in a file answer a put of it. The answer is another
revision. Its generation is one higher, without a wrap, for every number but the last one; then it is zero. -/
theorem generation_grows_iff {front rest : List Char} {n : Nat} {previous : String}
    (hform : previous.toList = front ++ '-' :: rest) (hnumber : Text.unsigned? Range.unsigned64 front = some n)
    {document : Json} (hcarried : revOf document = some previous) {suffix rev : String}
    (hput : (∃ documents, (Backend.memory.put suffix document documents).1 = .ok rev) ∨
      ∃ path faults fs, ((Backend.file path faults).put suffix document fs).1 = .ok rev) :
    rev ≠ previous ∧
      ((∃ more, rev.toList = Text.ofNat (n + 1) ++ '-' :: more) ↔ n + 1 < Range.unsigned64) ∧
      (n < generation (some rev) ↔ n + 1 < Range.unsigned64) ∧
      (n + 1 = Range.unsigned64 → rev = ofGeneration 0 suffix) := by
  have hgeneration : generation (some previous) = n := by
    rw [generation, Option.bind_some, Revision.generation?_of_form hform hnumber, Option.getD_some]
  have hbelow : n < Range.unsigned64 := (Text.exists_of_unsigned? hnumber).1
  have hnext := rev_of_put hput
  rw [hcarried] at hnext
  have hrev : rev = ofGeneration ((n + 1) % Range.unsigned64) suffix := by
    rw [hnext, Revision.next, hgeneration]
  have hspelled : generation (some rev) = (n + 1) % Range.unsigned64 := by
    rw [hnext, generation, Option.bind_some, Revision.generation?_next, hgeneration, Option.getD_some]
  have hwrap : (n + 1) % Range.unsigned64 = n + 1 ↔ n + 1 < Range.unsigned64 :=
    Nat.mod_eq_iff_lt (by decide)
  refine ⟨fun heq => Revision.next_ne (some previous) suffix ?_, ?_, ?_, fun hlast => ?_⟩
  · rw [← hnext, heq]
  · rw [hrev, Revision.toList_ofGeneration_eq_iff]
    exact hwrap
  · rw [hspelled]
    rcases Nat.lt_or_ge (n + 1) Range.unsigned64 with hroom | hfull
    · rw [Nat.mod_eq_of_lt hroom]
      exact iff_of_true (Nat.lt_succ_self n) hroom
    · have hlast : n + 1 = Range.unsigned64 := Nat.le_antisymm hbelow hfull
      rw [hlast, Nat.mod_self]
      exact iff_of_false (Nat.not_lt_zero n) (Nat.lt_irrefl _)
  · rw [hrev, hlast, Nat.mod_self]

/-- A stored document with its revision. -/
def storedAt (rev : String) : Documents := [("a", .obj [("_id", .str "a"), ("_rev", .str rev)])]

/-- After the generation seven, spelled with a plus and zeros, comes the generation eight. -/
theorem generation_of_seven :
    (Backend.memory.put "y" (.obj [("_id", .str "a"), ("_rev", .str "+007-x-1")]) (storedAt "+007-x-1")).1 =
        .ok "8-y" ∧
      7 < generation (some "8-y") := by
  have hput : (Backend.memory.put "y" (.obj [("_id", .str "a"), ("_rev", .str "+007-x-1")])
      (storedAt "+007-x-1")).1 = .ok "8-y" := rfl
  obtain ⟨-, -, hgrows, -⟩ := @generation_grows_iff "+007".toList "x-1".toList 7 "+007-x-1" (by decide +kernel)
    (by decide +kernel) (.obj [("_id", .str "a"), ("_rev", .str "+007-x-1")]) rfl "y" "8-y" (.inl ⟨_, hput⟩)
  exact ⟨hput, hgrows.mpr (by decide)⟩

/-- After the last generation, which a file may hold, comes the generation zero. -/
theorem generation_of_last :
    FileStore.load "store.json" .none
        (Manager.storeFile (FileStore.encode (storedAt "18446744073709551615-x"))) =
      .ok (storedAt "18446744073709551615-x") ∧
    ((Backend.file "store.json" .none).put "y"
        (.obj [("_id", .str "a"), ("_rev", .str "18446744073709551615-x")])
        (Manager.storeFile (FileStore.encode (storedAt "18446744073709551615-x")))).1 = .ok "0-y" ∧
    generation (some "0-y") < generation (some "18446744073709551615-x") := by
  have hstorable : FileStore.Storable (storedAt "18446744073709551615-x") :=
    ⟨by decide +kernel, by decide +kernel⟩
  have hload := FileStore.load_of_read (Manager.read_storeFile _) (FileStore.decode?_encode hstorable)
  have hholds : FileStore.Holds "store.json" (storedAt "18446744073709551615-x")
      (Manager.storeFile (FileStore.encode (storedAt "18446744073709551615-x"))) :=
    ⟨Manager.writable_storeFile _, hload⟩
  refine ⟨hload, (hholds.put "y" _ ⟨by decide +kernel, by decide +kernel⟩).1.trans ?_, by decide +kernel⟩
  rfl

end DocIndex
