import Mathlib.Data.List.GetD
import SmallOs.Kernel.Command
import SmallOs.Proofs.FileSystem.Lookup
import SmallOs.Proofs.Process.Arguments

/-! What `execute` makes of a command: the stores of its loops, and the program it finds. -/

namespace SmallOs

open Foundation

/-- The part of a command before its first space. -/
def firstWord (command : List Byte) : List Byte :=
  command.takeWhile (· ≠ 0x20)

/-- The first loop stores the first word, and stops behind its space. -/
theorem fileNameLoop_eq (i : Nat) (command : List Byte) :
    fileNameLoop i command = (storesFrom i (firstWord command),
      if command.dropWhile (· ≠ 0x20) = [] then none
      else some ((command.dropWhile (· ≠ 0x20)).drop 1)) := by
  -- The induction follows the loop along the command.
  induction command generalizing i with
  | nil => rfl
  | cons c command ih =>
    unfold fileNameLoop firstWord
    by_cases space : c = 0x20
    · subst space
      rfl
    · have other : decide (c ≠ 0x20) = true := decide_eq_true space
      rw [if_pos space, ih (i + 1),
        List.takeWhile_cons_of_pos (p := fun x => decide (x ≠ 0x20)) other,
        List.dropWhile_cons_of_pos (p := fun x => decide (x ≠ 0x20)) other]
      rfl

/-- The second loop stores its text with a NUL behind it. -/
theorem argLoop_eq (j : Nat) (text : List Byte) : argLoop j text = storesFrom j (text ++ [0]) := by
  -- The loop has no bound but the end of the text.
  induction text generalizing j with
  | nil => rfl
  | cons c text ih =>
    unfold argLoop
    rw [ih]
    rfl

/-- The loops of `execute` store the first word, and the text behind its space. -/
theorem parseLoops_eq (command : List Byte) : parseLoops command =
    ⟨storesFrom 0 (firstWord command), storesFrom 0 (argumentsOf (some command) ++ [0]),
      (argumentsOf (some command)).length⟩ := by
  unfold parseLoops argumentsOf
  rw [fileNameLoop_eq, Option.getD_some]
  simp only
  by_cases none : command.dropWhile (· ≠ 0x20) = []
  · -- Without a space only the NUL is stored.
    rw [if_pos none, none]
    rfl
  · rw [if_neg none]
    simp only [argLoop_eq]

/-- `strcpy` stores a text with the NUL it finds behind it. -/
theorem strcpyFrom_eq {src : Nat → Byte} {text : List Byte} {i : Nat} (ended : 0 ∉ text)
    (reads : ∀ k ≤ text.length, src (i + k) = (text ++ [0]).getD k 0) :
    strcpyFrom src i (text.length + 1) = storesFrom i (text ++ [0]) := by
  -- The induction is on the text, and the source moves along with it.
  induction text generalizing i with
  | nil =>
    have stop : src i = 0 := reads 0 (Nat.le_refl _)
    unfold strcpyFrom
    rw [if_neg (not_not.mpr stop)]
    rfl
  | cons c text ih =>
    -- A character of the text is not the NUL that ends the copy.
    obtain ⟨nonzero, rest⟩ := not_or.mp (mt List.mem_cons.mpr ended)
    have here : src i = c := reads 0 (Nat.zero_le _)
    have tail : ∀ k ≤ text.length, src (i + 1 + k) = (text ++ [0]).getD k 0 := by
      intro k below
      have next := reads (k + 1) (by simpa using below)
      rwa [show i + (k + 1) = i + 1 + k by omega] at next
    rw [List.length_cons]
    unfold strcpyFrom
    rw [here, if_pos fun zero => nonzero zero.symm, ih rest tail]
    rfl

/-- The arguments of a command have no NUL when the command has none. -/
theorem argumentsOf_ended {command : List Byte} (ended : 0 ∉ command) :
    0 ∉ argumentsOf (some command) := fun member =>
  ended ((List.dropWhile_sublist _).subset ((List.drop_sublist _ _).subset member))

/-- The copy into the control block stores the arguments with their NUL. -/
theorem copyArg_eq {command : List Byte} (ended : 0 ∉ command) (old : Nat → Byte) :
    copyArg command old = storesFrom 0 (argumentsOf (some command) ++ [0]) := by
  unfold copyArg
  rw [parseLoops_eq]
  refine strcpyFrom_eq (argumentsOf_ended ended) fun k inside => ?_
  -- Every byte up to the NUL was stored by the loop before.
  have stored : k < (argumentsOf (some command) ++ [0]).length := by
    rw [List.length_append, List.length_singleton]
    omega
  rw [storeAll_storesFrom, if_pos (Nat.zero_le _), Nat.zero_add, Nat.sub_zero,
    List.getD_eq_getElem _ _ stored, List.getD_eq_getElem _ _ stored]

/-- A first word that fits its array is padded there with NULs. -/
theorem fileNameArray_eq {command : List Byte} (fits : (firstWord command).length ≤ 32) :
    fileNameArray command =
      firstWord command ++ List.replicate (32 - (firstWord command).length) 0 := by
  unfold fileNameArray
  rw [parseLoops_eq]
  refine List.ext_getElem (by simp; omega) fun k left right => ?_
  rw [List.getElem_map, List.getElem_range, storeAll_storesFrom, if_pos (Nat.zero_le _),
    Nat.sub_zero]
  -- Inside the word the stores decide, and behind it the zeros the array was declared with.
  by_cases inside : k < (firstWord command).length
  · rw [List.getElem_append_left inside, List.getD_eq_getElem _ _ inside]
  · rw [List.getElem_append_right (Nat.le_of_not_lt inside), List.getElem_replicate,
      List.getD_eq_default _ _ (Nat.le_of_not_lt inside)]

/-- A command that fits the arrays of `execute`. -/
def CommandFits (command : List Byte) : Prop :=
  (firstWord command).length ≤ 32 ∧ (argumentsOf (some command)).length ≤ 127

instance (command : List Byte) : Decidable (CommandFits command) :=
  inferInstanceAs (Decidable (_ ∧ _))

/-- The model of `execute` follows a command exactly as long as no loop leaves its array. -/
theorem parseCommand_eq (command : List Byte) : parseCommand command =
    if CommandFits command then some (firstWord command, argumentsOf (some command)) else none := by
  -- The model asks for room for the NUL, too.
  have limit : (argumentsOf (some command)).length < bufsize ↔
      (argumentsOf (some command)).length ≤ 127 := by
    unfold bufsize
    omega
  by_cases fits : CommandFits command
  · rw [if_pos fits]
    exact if_pos ⟨fits.1, limit.mpr fits.2⟩
  · rw [if_neg fits]
    exact if_neg fun both => fits ⟨both.1, limit.mp both.2⟩

/-- What a caller of `execute` may expect of the way it takes a command apart. -/
structure CommandSafe (env : Env) (s : Kernel) (frame : CallFrame) (command : List Byte) : Prop where
  fileName : ∀ store ∈ (parseLoops command).fileName, store.1 < 32
  arg : ∀ store ∈ (parseLoops command).arg, store.1 < 128
  pcbArg : ∀ store ∈ copyArg command frame.stack, store.1 < 128
  /-- A command that fits is taken apart as it should be, whatever the arrays held before. -/
  parts : CommandFits command →
    fileNameArray command =
      firstWord command ++ List.replicate (32 - (firstWord command).length) 0 ∧
    copyArg command frame.stack = storesFrom 0 (argumentsOf (some command) ++ [0]) ∧
    (parseLoops command).size = (argumentsOf (some command)).length
  /-- The process that is started has these arguments. -/
  process : CommandFits command → ∀ entryPoint next,
    execute env s frame (some command) = some (.entered entryPoint, next) →
      next.curPcb.pcbArg = argumentsOf (some command) ∧
      next.curPcb.argSize = (argumentsOf (some command)).length
  /-- A longer command is refused. -/
  refused : ¬ CommandFits command →
    ∃ next, execute env s frame (some command) = some (.returned (-1), next)

/-- A command is taken apart safely exactly when it fits the arrays. -/
theorem commandSafe_iff {env : Env} {s : Kernel} {frame : CallFrame} {command : List Byte}
    (ended : 0 ∉ command) : CommandSafe env s frame command ↔ CommandFits command := by
  have loops := parseLoops_eq command
  have copy := copyArg_eq ended frame.stack
  have last : (argumentsOf (some command) ++ [0]).length =
      (argumentsOf (some command)).length + 1 := by
    rw [List.length_append, List.length_singleton]
  constructor
  · -- The last store of a longer text is outside its array, whatever becomes of the call.
    intro safe
    have name := safe.fileName
    have arguments := safe.arg
    rw [loops, storesFrom_within (Nat.zero_le _)] at name arguments
    exact ⟨by omega, by omega⟩
  · intro fits
    obtain ⟨name, arguments⟩ := fits
    -- The stores are those of a text from the start of its array, so its length bounds them.
    refine ⟨?_, ?_, ?_, fun _ => ⟨fileNameArray_eq name, copy, by rw [loops]⟩, ?_,
      fun long => absurd ⟨name, arguments⟩ long⟩
    · rw [loops]
      exact (storesFrom_within (Nat.zero_le _)).mpr (by omega)
    · rw [loops]
      exact (storesFrom_within (Nat.zero_le _)).mpr (by omega)
    · rw [copy]
      exact (storesFrom_within (Nat.zero_le _)).mpr (by omega)
    · intro _ entryPoint next executed
      rcases execute_cases executed with ⟨impossible, -⟩ | ⟨text, point, same, -, ⟨entered⟩⟩
      · cases impossible
      · -- The block of the new process holds what the model parsed.
        cases same
        have block := entered.block
        have arg : entered.arg = argumentsOf (some command) := entered.arg_eq
        rw [arg] at block
        exact ⟨congrArg Block.pcbArg block, congrArg Block.argSize block⟩

/-- The sample's shell with an argument is taken apart safely. -/
theorem commandSafe_iff_sample :
    CommandSafe sampleEnv sampleBooted sampleFrame (sampleArguments 0x78) :=
  (commandSafe_iff (by decide)).mpr (by decide)

/-- A first word of 128 characters, as the keyboard can supply it, is stored past its array. -/
theorem long_word_overruns : ¬ CommandSafe sampleEnv sampleBooted sampleFrame
      (List.replicate 128 0x61) ∧
    (32, 0x61) ∈ (parseLoops (List.replicate 128 0x61)).fileName := by
  have stored : (32, 0x61) ∈ (parseLoops (List.replicate 128 0x61)).fileName := by decide +kernel
  exact ⟨fun safe => absurd (safe.fileName _ stored) (by decide), stored⟩

/-- The four bytes `execute` compares: those of the file, and old bytes of its stack for those it lacks. -/
def headerBytes (img : Image) (stack : Nat → Byte) (inode : Nat) : Nat → Byte :=
  fun k => if k < img.inodeLength inode then img.fileByte inode k else stack k

/-- What is compared looks like the start of an executable. -/
def LooksExecutable (img : Image) (stack : Nat → Byte) (inode : Nat) : Prop :=
  inode ≤ img.numInode ∧ isExecutable (headerBytes img stack inode)

instance (img : Image) (stack : Nat → Byte) (inode : Nat) :
    Decidable (LooksExecutable img stack inode) :=
  inferInstanceAs (Decidable (_ ∧ _))

/-- A file is an executable: long enough for its entry point, and with the right first bytes. -/
def HoldsProgram (img : Image) (i : Nat) : Prop :=
  img.entryType i = 2 ∧ 28 ≤ img.inodeLength (img.entryInode i) ∧
    img.fileBytes (img.entryInode i) 0 4 = [0x7F, 0x45, 0x4C, 0x46]

instance (img : Image) (i : Nat) : Decidable (HoldsProgram img i) :=
  inferInstanceAs (Decidable (_ ∧ _ ∧ _))

/-- The entry point a file gives in its bytes from the twenty-fourth on. -/
def entryPointOf (img : Image) (inode : Nat) : Nat :=
  word32 (img.fileByte inode) 24

/-- The answer of `execute` is decided by the file alone: an executable is entered, and all else refused. -/
def DecidedByFile (img : Image) (i : Nat) (answer : Option (Outcome × Kernel)) : Prop :=
  ∃ next, answer = some (if HoldsProgram img i then .entered (entryPointOf img (img.entryInode i))
    else .returned (-1), next)

/-- Only the first four bytes of the compared buffer matter. -/
theorem isExecutable_congr {left right : Nat → Byte} (same : ∀ k < 4, left k = right k) :
    isExecutable left ↔ isExecutable right := by
  unfold isExecutable
  rw [same 0 (by omega), same 1 (by omega), same 2 (by omega), same 3 (by omega)]

/-- The first read of `execute` fills the buffer with as much of the file as there is. -/
theorem overlay_header {img : Image} {inode : Nat} (known : inode ≤ img.numInode)
    (stack : Nat → Byte) : (readData img inode 0 4).ret ≠ 2 ^ 32 - 1 ∧
      ∀ k < 4, overlay (readData img inode 0 4).bytes stack k = headerBytes img stack inode k := by
  by_cases some : 0 < img.inodeLength inode
  · obtain ⟨ret, bytes, -⟩ := readData_eq 4 known some
    refine ⟨by rw [ret]; omega, fun k inside => ?_⟩
    -- A short file leaves old bytes of the stack in the rest of the buffer.
    unfold overlay headerBytes
    rw [bytes]
    split
    · rw [Image.fileBytes_getD _ (by omega), Nat.zero_add]
    · rw [List.getD_eq_default _ _ (by rw [img.fileBytes_length]; omega)]
  · -- Of an empty file nothing is read.
    rw [readData_ended 4 known (Nat.le_of_not_lt some)]
    refine ⟨by decide, fun k inside => ?_⟩
    unfold overlay headerBytes
    rw [if_neg (by omega)]
    rfl

/-- What `execute` finds under a name is what looks executable. -/
theorem findProgram_eq {img : Image} {name : List Byte} {d : Dentry} (frame : CallFrame)
    (found : readDentryByName img (cstr name) = some d) :
    findProgram img frame name = if LooksExecutable img frame.stack d.inode then
      some (d, word32 (overlay (readData img d.inode 24 4).bytes
        (overlay (readData img d.inode 0 4).bytes frame.stack)) 0) else none := by
  unfold findProgram LooksExecutable
  rw [found]
  simp only
  by_cases known : d.inode ≤ img.numInode
  · obtain ⟨read, bytes⟩ := overlay_header known frame.stack
    rw [if_neg read]
    simp only [isExecutable_congr bytes, known, true_and]
  · -- A bad inode is the one failure that `execute` tests for.
    rw [readData_unknown 0 4 (Nat.lt_of_not_le known)]
    simp [known]

/-- A file that holds a program looks executable, whatever is on the stack. -/
theorem HoldsProgram.looks {img : Image} {i : Nat} (holds : HoldsProgram img i)
    (known : img.entryInode i < img.numInode) (stack : Nat → Byte) :
    LooksExecutable img stack (img.entryInode i) := by
  obtain ⟨-, long, magic⟩ := holds
  -- Four bytes of the file are compared, so the stack does not come in.
  have byte : ∀ k < 4, headerBytes img stack (img.entryInode i) k =
      [0x7F, 0x45, 0x4C, 0x46].getD k 0 := by
    intro k inside
    unfold headerBytes
    rw [if_pos (by omega), ← magic, Image.fileBytes_getD _ inside, Nat.zero_add]
  exact ⟨Nat.le_of_lt known, byte 0 (by omega), byte 1 (by omega), byte 2 (by omega),
    byte 3 (by omega)⟩

/-- What looks executable and is long enough has the right first bytes. -/
theorem LooksExecutable.magic {img : Image} {stack : Nat → Byte} {inode : Nat}
    (looks : LooksExecutable img stack inode) (long : 28 ≤ img.inodeLength inode) :
    img.fileBytes inode 0 4 = [0x7F, 0x45, 0x4C, 0x46] := by
  -- A file this long fills the compared buffer by itself.
  have byte : ∀ k < 4, img.fileByte inode k = headerBytes img stack inode k := by
    intro k inside
    exact (if_pos (by omega)).symm
  obtain ⟨-, first, second, third, fourth⟩ := looks
  rw [← byte 0 (by omega)] at first
  rw [← byte 1 (by omega)] at second
  rw [← byte 2 (by omega)] at third
  rw [← byte 3 (by omega)] at fourth
  simp [Image.fileBytes, List.range_succ, first, second, third, fourth]

/-- The entry point of a file that is long enough is read from its own bytes. -/
theorem entryPoint_eq {img : Image} {inode : Nat} (known : inode < img.numInode)
    (long : 28 ≤ img.inodeLength inode) (old : Nat → Byte) :
    word32 (overlay (readData img inode 24 4).bytes old) 0 = entryPointOf img inode := by
  have bytes : ∀ old k, overlay (readData img inode 24 4).bytes old k =
      if k < 4 then img.fileByte inode (24 + k) else old k :=
    (readData_within known (by omega) (by omega)).2.1
  simp only [word32, entryPointOf, bytes, Nat.zero_add, Nat.reduceAdd, Nat.reduceLT, if_true]

/-- The whole of a file fits the user page behind the address it is loaded at. -/
theorem fitsPage_iff {img : Image} {inode : Nat} (known : inode ≤ img.numInode) :
    FitsPage img inode ↔ 0x48000 + img.inodeLength inode ≤ 0x400000 := by
  unfold FitsPage fileSize
  -- The loader copies what `read_data` returns for the whole length of the file.
  by_cases some : 0 < img.inodeLength inode
  · obtain ⟨-, bytes, -⟩ := readData_eq (img.inodeLength inode) known some
    rw [bytes, Nat.min_self, img.fileBytes_length]
  · -- An empty file is loaded as nothing.
    rw [readData_ended _ known (Nat.le_of_not_lt some), show img.inodeLength inode = 0 by omega]
    rfl

/-- A slot that is picked is free, and the table is not full. -/
theorem room_of_picked {s : Kernel} {pid : Nat} (picked : pickProcess s = some pid) :
    ¬ (s.displayed.firstProcess ∧ TableFull s) := by
  rintro ⟨first, third, fourth, fifth⟩
  unfold pickProcess at picked
  rw [if_pos first] at picked
  simp [third, fourth, fifth] at picked

/-- Once a program and a slot are found, only the size of the program is left to decide. -/
theorem execute_found_eq {env : Env} {s : Kernel} {frame : CallFrame}
    {command fileName arg : List Byte} {dentry : Dentry} {entryPoint pid : Nat}
    (parsed : parseCommand command = some (fileName, arg))
    (found : findProgram env.image frame fileName = some (dentry, entryPoint))
    (picked : pickProcess s = some pid) : execute env s frame (some command) =
      if FitsPage env.image dentry.inode then
        some (.entered entryPoint, startProcess env (markFish s fileName) frame dentry arg pid)
      else none := by
  have room := room_of_picked picked
  by_cases fits : FitsPage env.image dentry.inode
  · rw [if_pos fits]
    exact execute_of_found parsed found room picked fits
  · -- `markFish` is called before the table is searched, and takes no slot.
    have full : ¬ ((markFish s fileName).displayed.firstProcess ∧
        TableFull (markFish s fileName)) := by
      rw [markFish_firstProcess, markFish_tableFull]
      exact room
    simp only [execute, parsed, found, full, markFish_pickProcess, picked, fits, if_false]

/--
The answer of `execute` is decided by the file exactly when nothing else passes for a program.

The four bytes compared must not look executable unless the entry is a regular file that holds its
entry point, too, and fits the user page.
-/
theorem decidedByFile_iff {env : Env} {s : Kernel} {frame : CallFrame} {i : Nat}
    (wellFormed : env.image.WellFormed) (live : i < env.image.numDentry)
    (distinct : ∀ j < env.image.numDentry, entryText env.image j = entryText env.image i → j = i)
    (spaceless : 0x20 ∉ entryText env.image i) (free : ∃ pid, pickProcess s = some pid) :
    DecidedByFile env.image i (execute env s frame (some (entryText env.image i))) ↔
      (LooksExecutable env.image frame.stack (env.image.entryInode i) →
        HoldsProgram env.image i ∧
          0x48000 + env.image.inodeLength (env.image.entryInode i) ≤ 0x400000) := by
  obtain ⟨pid, picked⟩ := free
  have bound := entryText_length env.image i
  have ended : 0 ∉ entryText env.image i := fun member => by
    simpa using List.mem_takeWhile_imp (p := fun c => decide (c ≠ 0)) member
  -- A name without a space is the whole command.
  have parsed : parseCommand (entryText env.image i) = some (entryText env.image i, []) := by
    have all : ∀ c ∈ entryText env.image i, decide (c ≠ 0x20) = true := fun c member =>
      decide_eq_true fun space => spaceless (space ▸ member)
    have word : firstWord (entryText env.image i) = entryText env.image i :=
      List.takeWhile_eq_self_iff.mpr all
    have rest : argumentsOf (some (entryText env.image i)) = [] := by
      unfold argumentsOf
      rw [Option.getD_some, List.dropWhile_eq_nil_iff.mpr all]
      rfl
    rw [parseCommand_eq, word, rest]
    refine if_pos ⟨?_, ?_⟩
    · rw [word]
      exact bound
    · rw [rest]
      exact Nat.zero_le _
  -- The name is compared up to thirty-two characters, and this one is no longer.
  have text : textFrom (cstr (entryText env.image i)) 0 32 = entryText env.image i := by
    rw [textFrom_cstr ended, List.drop_zero, List.take_of_length_le bound]
  -- No entry before this one has the same name.
  have looked := readDentryByName_first wellFormed.entries live text
    fun j before same => absurd (distinct j (by omega) same) (by omega)
  have program := findProgram_eq frame looked
  by_cases looks : LooksExecutable env.image frame.stack (env.image.entryInode i)
  · -- The program is entered, unless it does not fit its page.
    rw [if_pos looks] at program
    rw [execute_found_eq parsed program picked, forall_prop_of_true looks]
    have page := fitsPage_iff looks.1
    constructor
    · rintro ⟨next, entered⟩
      split at entered
      · rename_i fits
        split at entered
        · rename_i holds
          exact ⟨holds, page.mp fits⟩
        · cases entered
      · cases entered
    · rintro ⟨holds, fits⟩
      have known := wellFormed.inodes i live holds.1
      unfold DecidedByFile
      rw [if_pos (page.mpr fits), if_pos holds, ← entryPoint_eq known holds.2.1]
      exact ⟨_, rfl⟩
  · rw [if_neg looks] at program
    -- What does not look executable is refused, and holds no program either.
    refine iff_of_true ?_ fun impossible => absurd impossible looks
    have other : ¬ HoldsProgram env.image i := fun holds =>
      looks (holds.looks (wellFormed.inodes i live holds.1) frame.stack)
    refine ⟨markFish s (entryText env.image i), ?_⟩
    rw [if_neg other]
    simp only [execute, parsed, program]

/-- The sample's shell is entered because of what its file holds. -/
theorem decidedByFile_iff_sample : DecidedByFile sampleEnv.image 1
    (execute sampleEnv sampleBooted sampleFrame (some (entryText sampleEnv.image 1))) := by
  have distinct : ∀ j < sampleEnv.image.numDentry,
      entryText sampleEnv.image j = entryText sampleEnv.image 1 → j = 1 := by
    have all : ∀ j < 4, entryText sampleImage j = entryText sampleImage 1 → j = 1 := by
      decide +kernel
    exact all
  exact (decidedByFile_iff sampleImage_wellFormed (by decide +kernel) distinct (by decide +kernel)
    ⟨3, by decide +kernel⟩).mpr fun _ => ⟨by decide +kernel, by decide +kernel⟩

/-- The directory's own entry names the first inode, and is executed as the shell that has it. -/
theorem directory_is_executed : sampleImage.WellFormed ∧ sampleImage.entryType 0 = 1 ∧
    (∃ next, execute sampleEnv sampleBooted sampleFrame (some (entryText sampleEnv.image 0)) =
      some (.entered 0x8048018, next)) ∧
    ¬ DecidedByFile sampleEnv.image 0
      (execute sampleEnv sampleBooted sampleFrame (some (entryText sampleEnv.image 0))) := by
  have kind : sampleImage.entryType 0 = 1 := by decide +kernel
  have name : entryText sampleEnv.image 0 = [0x2E] := by decide +kernel
  -- The entry of the directory has inode zero, which is the shell's.
  have looked : readDentryByName sampleEnv.image (cstr [0x2E]) =
      some ⟨[0x2E] ++ List.replicate 31 0, 1, 0⟩ := by decide +kernel
  have looks : LooksExecutable sampleEnv.image sampleFrame.stack 0 := by decide +kernel
  have point : word32 (overlay (readData sampleEnv.image 0 24 4).bytes
      (overlay (readData sampleEnv.image 0 0 4).bytes sampleFrame.stack)) 0 = 0x8048018 := by
    decide +kernel
  have program := findProgram_eq sampleFrame looked
  rw [if_pos looks, point] at program
  have parsed : parseCommand [0x2E] = some ([0x2E], []) := rfl
  have picked : pickProcess sampleBooted = some 3 := by decide +kernel
  have fits : FitsPage sampleEnv.image 0 := sample_fits
  have entered := execute_found_eq parsed program picked
  rw [if_pos fits] at entered
  rw [name]
  refine ⟨sampleImage_wellFormed, kind, ⟨_, entered⟩, ?_⟩
  -- A directory is no executable, so the claim asks for a refusal.
  rintro ⟨next, answer⟩
  have other : ¬ HoldsProgram sampleEnv.image 0 := fun holds => by
    have regular : sampleImage.entryType 0 = 2 := holds.1
    rw [kind] at regular
    cases regular
  rw [entered, if_neg other] at answer
  cases answer

end SmallOs
