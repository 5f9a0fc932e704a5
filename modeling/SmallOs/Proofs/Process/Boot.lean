import SmallOs.Proofs.Process.Lifecycle

/-! Booting succeeds exactly when the image holds a shell, and a small image that does. -/

namespace SmallOs

open Foundation

/-- A booted machine has entered its first shell. -/
theorem boot_entered {env : Env} {start : Kernel} (booted : boot env = some start) :
    ∃ entryPoint, Nonempty (Entered env (initialKernel env) bootFrame shell entryPoint start) := by
  unfold boot at booted
  split at booted
  · rename_i entryPoint after started
    cases booted
    -- The boot code goes on only with an entered program.
    rcases execute_cases started with ⟨impossible, -⟩ | ⟨text, point, same, outcome, entered⟩
    · cases impossible
    · cases same
      cases outcome
      exact ⟨_, entered⟩
  · cases booted

/-- An image whose shell can be loaded boots, and the shell gets the first slot. -/
theorem boot_of_found {env : Env} {dentry : Dentry} {entryPoint : Nat}
    (found : findProgram env.image bootFrame shell = some (dentry, entryPoint))
    (fits : FitsPage env.image dentry.inode) :
    boot env = some (startProcess env (initialKernel env) bootFrame dentry [] 0) := by
  -- Nothing runs yet, so neither the table nor the name of the program stands in the way.
  have parsed : parseCommand shell = some (shell, []) := by decide
  have plain : markFish (initialKernel env) shell = initialKernel env := if_neg (by decide)
  have room : ¬ ((initialKernel env).displayed.firstProcess = true ∧
      TableFull (initialKernel env)) := by simp [Kernel.displayed, initialKernel, initialTerminal]
  have picked : pickProcess (initialKernel env) = some 0 := rfl
  simp only [boot, execute_of_found parsed found room picked fits, plain]

/-- The nonzero bytes of a small image: a directory, a shell, a file of five bytes, and a clock. -/
def sampleCells : List (Nat × Byte) :=
  -- The counts of entries, inodes, and data blocks.
  [(0, 4), (4, 2), (8, 2),
   -- The entries, each with its name, type, and inode.
   (64, 0x2E), (96, 1),
   (128, 0x73), (129, 0x68), (130, 0x65), (131, 0x6C), (132, 0x6C), (160, 2),
   (192, 0x61), (224, 2), (228, 1),
   (256, 0x72), (257, 0x74), (258, 0x63),
   -- The two inodes, each with its length and its first block.
   (4096, 40),
   (8192, 5), (8196, 1),
   -- The start of the shell: the executable's mark, and the entry point.
   (12288, 0x7F), (12289, 0x45), (12290, 0x4C), (12291, 0x46),
   (12312, 0x18), (12313, 0x80), (12314, 0x04), (12315, 0x08),
   -- The five bytes of the file.
   (16384, 0x61), (16385, 0x62), (16386, 0x63), (16387, 0x64), (16388, 0x65)]

/-- The image of these bytes, loaded at one megabyte. -/
def sampleImage : Image :=
  { mem := fun a => if a < 0x100000 then 0 else (sampleCells.lookup (a - 0x100000)).getD 0
    dentryAddr := 0x100000 }

/-- Surroundings with that image, and otherwise empty memory. -/
def sampleEnv : Env :=
  { image := sampleImage
    tableAddr := 0x5000
    pcbMemory := fun _ => ⟨0, 0, fun _ => ⟨none, 0, 0, 0⟩, 0, 0, [], 0⟩
    frameMemory := fun _ => 0
    videoMemory := fun _ => 0 }

/-- The directory entry `execute` finds for the sample's shell. -/
def sampleShell : Dentry :=
  ⟨shell ++ List.replicate 27 0, 2, 0⟩

/-- The sample's shell can be loaded from any stack. -/
theorem sample_found (frame : CallFrame) :
    findProgram sampleImage frame shell = some (sampleShell, 0x8048018) := by
  -- Both reads fill all four bytes, so nothing of the stack is left in the buffer.
  have entry : readDentryByName sampleImage (cstr shell) = some sampleShell := by decide +kernel
  have header : readData sampleImage 0 0 4 = ⟨4, [0x7F, 0x45, 0x4C, 0x46], [0]⟩ := by
    decide +kernel
  have start : readData sampleImage 0 24 4 = ⟨4, [0x18, 0x80, 0x04, 0x08], [0]⟩ := by
    decide +kernel
  simp only [findProgram, entry, sampleShell, header, start]
  simp [isExecutable, overlay, word32]

/-- The sample's shell fits its page. -/
theorem sample_fits : FitsPage sampleImage sampleShell.inode := by
  decide +kernel

/-- The sample's shell as it runs after boot. -/
def sampleBooted : Kernel :=
  startProcess sampleEnv (initialKernel sampleEnv) bootFrame sampleShell [] 0

/-- The sample boots. -/
theorem sample_boot : boot sampleEnv =
    some (startProcess sampleEnv (initialKernel sampleEnv) bootFrame sampleShell [] 0) :=
  boot_of_found (sample_found bootFrame) sample_fits

/-- The stack from which the sample's further processes are started. -/
def sampleFrame : CallFrame :=
  ⟨100, 200, fun _ => 0⟩

/-- The second terminal is opened, its shell is started, and a tick hands the processor back. -/
def startSecond : List Event :=
  -- Alt is held for the function key.
  [.keyboard 0x38, .keyboard 0x3C, .call sampleFrame (.execute (some shell)), .pit 8 12]

/-- The sample as it boots is reachable. -/
theorem sample_reachable : Reachable sampleEnv
    (startProcess sampleEnv (initialKernel sampleEnv) bootFrame sampleShell [] 0) :=
  ⟨_, [], sample_boot, .nil _⟩

end SmallOs
