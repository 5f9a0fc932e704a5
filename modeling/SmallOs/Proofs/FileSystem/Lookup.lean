import Mathlib.Data.List.GetD
import SmallOs.Proofs.FileSystem.Directory
import SmallOs.Proofs.FileSystem.FileRead

/-! Entries of the directory by their names: which slots a lookup admits, and what a listing copies. -/

namespace SmallOs

open Foundation

/-- The first entry of the directory that has a name, as a user of the directory counts entries. -/
def liveEntry (img : Image) (name : List Byte) : Option Nat :=
  (List.range img.numDentry).find? fun i => entryText img i = name

/-- A lookup finds the type and the inode of the first entry that has the name, or fails with the directory. -/
def LookupExact (img : Image) (name : List Byte) : Prop :=
  (readDentryByName img (cstr name)).map (fun d => (d.fileType, d.inode)) =
    (liveEntry img name).map fun i => (img.entryType i, img.entryInode i)

instance (img : Image) (name : List Byte) : Decidable (LookupExact img name) :=
  inferInstanceAs (Decidable (_ = _))

/-- The search takes the first slot whose text is that of the name it was given. -/
theorem readDentryByNameFrom_eq (img : Image) (fname : Nat → Byte) (i n : Nat) :
    readDentryByNameFrom img fname i n =
      ((List.range' i n).find? fun k => entryText img k = textFrom fname 0 32).map fun k =>
        ⟨strncpy fname 32, img.entryType k, img.entryInode k⟩ := by
  -- The induction follows the loop over the slots.
  induction n generalizing i with
  | zero => rfl
  | succ n ih =>
    -- `strncmp` answers zero exactly when the texts agree within thirty-two characters.
    have compared : strncmp fname (img.entryName i) 32 = 0 ↔
        entryText img i = textFrom fname 0 32 :=
      (strncmpFrom_eq_zero fname (img.entryName i) 0 32).trans eq_comm
    rw [List.range'_succ, List.find?_cons]
    unfold readDentryByNameFrom
    by_cases here : entryText img i = textFrom fname 0 32
    · simp only [compared.mpr here, if_true, here, decide_true, Option.map_some]
    · simp only [mt compared.mp here, if_false, here, decide_false, ih]

/-- The search goes over all sixty-three slots. -/
theorem readDentryByName_eq (img : Image) (fname : Nat → Byte) :
    readDentryByName img fname =
      ((List.range 63).find? fun k => entryText img k = textFrom fname 0 32).map fun k =>
        ⟨strncpy fname 32, img.entryType k, img.entryInode k⟩ := by
  rw [List.range_eq_range']
  exact readDentryByNameFrom_eq img fname 0 63

/-- No name of an entry is longer than its field. -/
theorem entryText_length (img : Image) (i : Nat) : (entryText img i).length ≤ 32 :=
  textFrom_length_le _ 0 32

/-- A search that succeeds among the first elements finds the same one among more of them. -/
theorem find?_range_of_le {p : Nat → Bool} {m n i : Nat} (le : m ≤ n)
    (found : (List.range m).find? p = some i) : (List.range n).find? p = some i := by
  -- The longer range starts with the shorter one.
  obtain ⟨rest, rfl⟩ := Nat.exists_eq_add_of_le le
  rw [List.range_add, List.find?_append, found, Option.some_or]

/--
A lookup is exact for the names of live entries, and for names that agree with no slot.

The sixty-three slots are all compared, used or not, and only the first thirty-two characters of the name.
-/
theorem lookupExact_iff {img : Image} {name : List Byte} (few : img.numDentry ≤ 63)
    (ended : 0 ∉ name) :
    LookupExact img name ↔ (∃ i < img.numDentry, entryText img i = name) ∨
      ∀ i < 63, entryText img i ≠ name.take 32 := by
  have text : textFrom (cstr name) 0 32 = name.take 32 := by
    rw [textFrom_cstr ended, List.drop_zero]
  unfold LookupExact
  rw [readDentryByName_eq, text]
  constructor
  · -- What the directory does not have, no slot may have either.
    intro exact_
    cases live : liveEntry img name with
    | some i =>
      have member := List.mem_of_find?_eq_some live
      have named := List.find?_some live
      exact .inl ⟨i, List.mem_range.mp member, by simpa using named⟩
    | none =>
      rw [live, Option.map_none, Option.map_eq_none_iff, Option.map_eq_none_iff] at exact_
      refine .inr fun i slot same => ?_
      have absent := List.find?_eq_none.mp exact_ i (List.mem_range.mpr slot)
      exact absent (by simpa using same)
  · rintro (⟨i, slot, named⟩ | absent)
    · -- A live entry comes before every unused slot, and its name is not cut.
      have whole : name.take 32 = name := by
        refine List.take_of_length_le ?_
        rw [← named]
        exact entryText_length img i
      have live : ∃ k, liveEntry img name = some k := by
        rw [← Option.isSome_iff_exists, liveEntry, List.find?_isSome]
        exact ⟨i, List.mem_range.mpr slot, by simpa using named⟩
      obtain ⟨k, first⟩ := live
      have found := find?_range_of_le few first
      rw [whole, found, first]
      rfl
    · -- A live entry with the whole name would agree with it in its own slot.
      have nobody : liveEntry img name = none := by
        refine List.find?_eq_none.mpr fun i member => ?_
        have slot := List.mem_range.mp member
        intro same
        have named : entryText img i = name := by simpa using same
        refine absent i (by omega) ?_
        rw [List.take_of_length_le (named ▸ entryText_length img i)]
        exact named
      have none : ((List.range 63).find? fun k => entryText img k = name.take 32) = none := by
        refine List.find?_eq_none.mpr fun i member => ?_
        simpa using absent i (List.mem_range.mp member)
      rw [nobody, none]
      rfl

/-- The file of the sample's directory is looked up by its name. -/
theorem lookupExact_iff_sample : LookupExact sampleImage sampleFile :=
  (lookupExact_iff (by decide +kernel) (by decide)).mpr
    (.inl ⟨2, by decide +kernel, by decide +kernel⟩)

/-- The empty name is found in the first unused slot of the sample, and in no entry of its directory. -/
theorem lookup_finds_unused : sampleImage.WellFormed ∧ ¬ LookupExact sampleImage [] ∧
    readDentryByName sampleImage (cstr []) = some ⟨List.replicate 32 0, 0, 0⟩ ∧
    liveEntry sampleImage [] = none :=
  ⟨sampleImage_wellFormed, by decide +kernel, by decide +kernel, by decide +kernel⟩

/-- A lookup of the text of a live entry takes that entry, if no entry before it has the same text. -/
theorem readDentryByName_first {img : Image} {fname : Nat → Byte} {i : Nat}
    (few : img.numDentry ≤ 63) (live : i < img.numDentry)
    (text : textFrom fname 0 32 = entryText img i)
    (first : ∀ j < i, entryText img j ≠ entryText img i) : readDentryByName img fname =
      some ⟨strncpy fname 32, img.entryType i, img.entryInode i⟩ := by
  -- The search among the live entries ends at this one.
  have found : (List.range img.numDentry).find? (fun k => entryText img k = entryText img i) =
      some i := by
    refine List.find?_range_eq_some.mpr ⟨by simp, List.mem_range.mpr live, fun k before => ?_⟩
    simpa using first k before
  rw [readDentryByName_eq, text, find?_range_of_le few found]
  rfl

/--
A live entry that is read by its index is found again by its name.

Whatever follows the thirty-two bytes of the name in memory, and whatever the unused slots hold.
-/
theorem readDentry_agree {img : Image} {fname : Nat → Byte} {i : Nat} {d : Dentry}
    (few : img.numDentry ≤ 63)
    (distinct : ∀ j < img.numDentry, ∀ k < img.numDentry,
      entryText img j = entryText img k → j = k)
    (read : readDentryByIndex img i = some d)
    (named : ∀ k < 32, fname k = d.fileName.getD k 0) :
    readDentryByName img fname = some d := by
  unfold readDentryByIndex at read
  split at read
  · cases read
  · rename_i live
    obtain rfl := Option.some.inj read
    -- The copied name has the text of the entry, and is padded as the entry's copy was.
    have text : textFrom fname 0 32 = entryText img i := textFrom_of_copy named
    have padded : strncpy fname 32 = strncpy (img.entryName i) 32 := by
      unfold strncpy
      rw [strncpyFrom_eq, strncpyFrom_eq, text]
      rfl
    rw [readDentryByName_first few (by omega) text fun k before same =>
      absurd (distinct k (by omega) i (by omega) same) (by omega), padded]

/-- The third entry of the sample, read by its index and looked up by the name that was read. -/
theorem readDentry_agree_sample :
    readDentryByName sampleImage (cstr (sampleFile ++ List.replicate 31 0)) =
      some ⟨sampleFile ++ List.replicate 31 0, 2, 1⟩ := by
  have read : readDentryByIndex sampleImage 2 = some ⟨sampleFile ++ List.replicate 31 0, 2, 1⟩ := by
    decide +kernel
  refine readDentry_agree (by decide +kernel) ?_ read ?_
  · have all : ∀ j < 4, ∀ k < 4, entryText sampleImage j = entryText sampleImage k → j = k := by
      decide +kernel
    exact all
  · intro k inside
    rfl

/-- A directory read returns the length of a name, and the name with NULs up to thirty-three bytes. -/
def RecordExact (img : Image) (s : Kernel) : Prop :=
  (dirRead img s).ret = (entryText img s.dirReadLoc).length ∧
    (dirRead img s).bytes = entryText img s.dirReadLoc ++
      List.replicate (33 - (entryText img s.dirReadLoc).length) 0

instance (img : Image) (s : Kernel) : Decidable (RecordExact img s) :=
  inferInstanceAs (Decidable (_ ∧ _))

/-- The byte of an entry's copy behind its name: padding, unless the name fills its field. -/
theorem dentryBytes_behind (img : Image) (i fileType inode : Nat) :
    dentryBytes ⟨strncpy (img.entryName i) 32, fileType, inode⟩ (entryText img i).length =
      if (entryText img i).length < 32 then 0 else UInt8.ofNat fileType := by
  have copy : strncpyFrom (img.entryName i) 0 32 =
      entryText img i ++ List.replicate (32 - (entryText img i).length) 0 :=
    strncpyFrom_eq (img.entryName i) 0 32
  have bound := entryText_length img i
  change ((strncpyFrom (img.entryName i) 0 32 ++ wordBytes fileType).getD
    (entryText img i).length 0) = _
  split
  · -- The copy pads a shorter name up to the thirty-two bytes.
    rename_i short
    rw [List.getD_append _ _ _ _ (by simpa using short), copy,
      List.getD_append_right _ _ _ _ (Nat.le_refl _), Nat.sub_self,
      List.getD_replicate 0 (by omega)]
  · -- A name of thirty-two bytes is followed by the first byte of the type.
    have full : (entryText img i).length = 32 := by omega
    rw [full, List.getD_append_right _ _ _ _ (by simp)]
    simp [wordBytes]

/-- What a directory read stores: the name, the byte behind it in the copy, and NULs. -/
theorem dirRead_bytes {img : Image} {s : Kernel} (live : s.dirReadLoc < img.numDentry) :
    (dirRead img s).bytes = entryText img s.dirReadLoc ++
      [if (entryText img s.dirReadLoc).length < 32 then 0
        else UInt8.ofNat (img.entryType s.dirReadLoc)] ++
      List.replicate (32 - (entryText img s.dirReadLoc).length) 0 := by
  have found : readDentryByIndex img s.dirReadLoc = some ⟨strncpy (img.entryName s.dirReadLoc) 32,
      img.entryType s.dirReadLoc, img.entryInode s.dirReadLoc⟩ := if_neg (by omega)
  have text := dentryBytes_text img s.dirReadLoc (img.entryType s.dirReadLoc)
    (img.entryInode s.dirReadLoc)
  -- The name is copied together with the byte behind it.
  have behind := dentryBytes_behind img s.dirReadLoc (img.entryType s.dirReadLoc)
    (img.entryInode s.dirReadLoc)
  have length : strlen (dentryBytes ⟨strncpy (img.entryName s.dirReadLoc) 32,
      img.entryType s.dirReadLoc, img.entryInode s.dirReadLoc⟩) 32 =
        (entryText img s.dirReadLoc).length := by
    rw [strlen, strlenFrom_eq_length, text, Nat.zero_add]
  simp only [dirRead, found, length]
  generalize (⟨strncpy (img.entryName s.dirReadLoc) 32, img.entryType s.dirReadLoc,
    img.entryInode s.dirReadLoc⟩ : Dentry) = d at text behind ⊢
  have reads := fun k => textFrom_get (dentryBytes d) 0 32 (k := k)
  rw [text] at reads
  -- The copy takes the name and one byte more, whatever that byte is.
  have copied : strncpy (dentryBytes d) ((entryText img s.dirReadLoc).length + 1) =
      entryText img s.dirReadLoc ++ [dentryBytes d (entryText img s.dirReadLoc).length] := by
    rw [strncpy, strncpyFrom_succ _ 0 _ fun k inside => (reads k inside).2, Nat.zero_add]
    congr 1
    refine List.ext_getElem? fun k => ?_
    by_cases inside : k < (entryText img s.dirReadLoc).length
    · rw [(reads k inside).1]
      simp [inside]
    · simp [inside]
  rw [copied, behind, List.length_append, List.length_singleton]
  congr 2
  omega

/-- A directory read is exact unless the name fills its field and the type's low byte is not zero. -/
theorem recordExact_iff {img : Image} {s : Kernel} (live : s.dirReadLoc < img.numDentry) :
    RecordExact img s ↔ (entryText img s.dirReadLoc).length < 32 ∨
      img.entryType s.dirReadLoc % 256 = 0 := by
  have bound := entryText_length img s.dirReadLoc
  -- The exact record has a NUL in that place.
  have zeros : List.replicate (33 - (entryText img s.dirReadLoc).length) (0 : Byte) =
      [0] ++ List.replicate (32 - (entryText img s.dirReadLoc).length) 0 := by
    rw [show 33 - (entryText img s.dirReadLoc).length =
      32 - (entryText img s.dirReadLoc).length + 1 by omega, List.replicate_succ,
      List.singleton_append]
  unfold RecordExact
  rw [dirRead_bytes live, zeros, List.append_assoc, and_iff_right (dirRead_entry live).1]
  -- Everything but the one byte behind the name is as it should be.
  rw [List.append_cancel_left_eq, List.append_cancel_right_eq, List.cons.injEq, and_iff_left rfl]
  split
  · rename_i short
    exact iff_of_true rfl (.inl short)
  · rename_i full
    rw [or_iff_right full, ← UInt8.toNat_inj, UInt8.toNat_ofNat']
    exact Iff.rfl

/-- The first entry of the sample has a short name. -/
theorem recordExact_iff_sample : RecordExact sampleImage (initialKernel sampleEnv) :=
  (recordExact_iff (by decide +kernel)).mpr (.inl (by decide +kernel))

/-- A directory of one regular file whose name fills its thirty-two bytes. -/
def sampleFullName : Image :=
  { mem := fun a => if a = 0 then 1 else if 64 ≤ a ∧ a < 96 then 0x61 else if a = 96 then 2 else 0
    dentryAddr := 0 }

/-- Behind a name of thirty-two bytes the type of its entry reaches the buffer. -/
theorem record_leaks_type : (initialKernel sampleEnv).dirReadLoc < sampleFullName.numDentry ∧
    entryText sampleFullName 0 = List.replicate 32 0x61 ∧
    (dirRead sampleFullName (initialKernel sampleEnv)).bytes = List.replicate 32 0x61 ++ [2] ∧
    ¬ RecordExact sampleFullName (initialKernel sampleEnv) :=
  ⟨by decide +kernel, by decide +kernel, by decide +kernel, by decide +kernel⟩

end SmallOs
