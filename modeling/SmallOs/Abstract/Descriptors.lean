import SmallOs.Kernel.Syscall

/-! The open descriptors of a process as a partial map, and what the calls on them do to it. -/

namespace SmallOs

open Foundation

/-- What an open descriptor stands for, as the last `open` of its number left it. -/
structure Opened where
  table : OpTable
  /-- The inode, which only a regular file uses. -/
  inode : Nat
  position : Nat
  deriving DecidableEq

/-- The operation tables of what a program can name. -/
def OpTable.Named (table : OpTable) : Prop :=
  table = .rtc ∨ table = .dir ∨ table = .file

/--
The open descriptors of one process, a partial map on the numbers from zero to seven.

Standard input and output are entries of every table, and only what has a name can join them.
-/
structure DescriptorTable where
  entries : Int → Option Opened
  input : entries 0 = some ⟨.stdin, 0, 0⟩
  output : entries 1 = some ⟨.stdout, 0, 0⟩
  range : ∀ fd o, entries fd = some o → 0 ≤ fd ∧ fd ≤ maxFd
  named : ∀ fd o, 2 ≤ fd → entries fd = some o → o.table.Named

namespace DescriptorTable

/-- The table a process starts with. -/
def initial : DescriptorTable where
  entries fd := if fd = 0 then some ⟨.stdin, 0, 0⟩ else if fd = 1 then some ⟨.stdout, 0, 0⟩ else none
  input := rfl
  output := rfl
  range := by
    intro fd o present
    simp only [maxFd]
    split at present
    · omega
    · split at present
      · omega
      · cases present
  named := by
    intro fd o above present
    rw [if_neg (by omega), if_neg (by omega)] at present
    cases present

/-- Change what a number above standard output stands for. -/
def set (table : DescriptorTable) (fd : Int) (inside : 2 ≤ fd ∧ fd ≤ maxFd) (what : Option Opened)
    (kind : ∀ o, what = some o → o.table.Named) : DescriptorTable where
  entries := Function.update table.entries fd what
  input := by
    rw [Function.update_of_ne (by omega)]
    exact table.input
  output := by
    rw [Function.update_of_ne (by omega)]
    exact table.output
  range := by
    intro other o present
    by_cases same : other = fd
    · omega
    · rw [Function.update_of_ne same] at present
      exact table.range other o present
  named := by
    intro other o above present
    by_cases same : other = fd
    · subst same
      rw [Function.update_self] at present
      exact kind o present
    · rw [Function.update_of_ne same] at present
      exact table.named other o above present

/-- The lowest free number that `open` may hand out, if there is one. -/
def lowest (table : DescriptorTable) : Option Nat :=
  [2, 3, 4, 5, 6, 7].find? fun fd => (table.entries fd).isNone

/-- The number found is free, and every one below it that `open` may hand out is taken. -/
theorem lowest_eq_some {table : DescriptorTable} {fd : Nat} :
    table.lowest = some fd ↔ (2 ≤ fd ∧ fd ≤ maxFd) ∧ table.entries fd = none ∧
      ∀ lower : Nat, 2 ≤ lower → lower < fd → table.entries lower ≠ none := by
  have numbers : [2, 3, 4, 5, 6, 7] = List.range' 2 6 := rfl
  unfold lowest
  rw [numbers, List.find?_range'_eq_some]
  simp only [Option.isNone_iff_eq_none, List.mem_range'_1, maxFd, Bool.not_eq_true',
    Option.isNone_eq_false_iff, Option.isSome_iff_ne_none]
  constructor
  · rintro ⟨free, inside, below⟩
    exact ⟨by omega, free, below⟩
  · rintro ⟨inside, free, below⟩
    exact ⟨free, by omega, below⟩

/-- No number is found exactly when all six are taken. -/
theorem lowest_eq_none {table : DescriptorTable} :
    table.lowest = none ↔ ∀ fd : Nat, 2 ≤ fd → fd ≤ maxFd → table.entries fd ≠ none := by
  have numbers : [2, 3, 4, 5, 6, 7] = List.range' 2 6 := rfl
  unfold lowest
  rw [numbers, List.find?_eq_none]
  simp only [List.mem_range'_1, maxFd, Option.isNone_iff_eq_none]
  -- A search that finds nothing has looked at every number.
  constructor
  · intro taken fd above below
    exact taken fd ⟨above, by omega⟩
  · intro taken fd inside
    exact taken fd inside.1 (by omega)

/-- What `open` makes a number stand for. -/
def opened (d : Dentry) : Opened :=
  ⟨tableFor d.fileType, d.inode, 0⟩

theorem opened_named (d : Dentry) : (opened d).table.Named := by
  -- Every file type is given one of the three tables.
  simp only [opened, tableFor, OpTable.Named]
  split
  · exact .inl rfl
  · split
    · exact .inr (.inl rfl)
    · exact .inr (.inr rfl)

theorem some_opened_named (d : Dentry) (o : Opened) (same : some (opened d) = some o) :
    o.table.Named :=
  Option.some.inj same ▸ opened_named d

/-- The lowest free number is one `open` may hand out. -/
theorem lowest_inside {table : DescriptorTable} {fd : Nat} (found : table.lowest = some fd) :
    2 ≤ (fd : Int) ∧ (fd : Int) ≤ maxFd := by
  have inside := (lowest_eq_some.mp found).1
  exact ⟨by omega, by omega⟩

/-- `open` of what a name was found to be: the number handed out, or `-1`, and the table after. -/
def «open» (table : DescriptorTable) : Option Dentry → Int × DescriptorTable
  | none => (-1, table)
  | some d =>
    match found : table.lowest with
    | none => (-1, table)
    | some fd =>
      (fd, table.set fd (lowest_inside found) (some (opened d)) (some_opened_named d))

/-- `close`: zero where the number stands for something a program named, else `-1`. -/
def close (table : DescriptorTable) (fd : Int) : Int × DescriptorTable :=
  if inside : (2 ≤ fd ∧ fd ≤ maxFd) ∧ table.entries fd ≠ none then
    (0, table.set fd inside.1 none fun _ same => by cases same)
  else (-1, table)

/-- Where a regular file stands after a read of it: what was read is added, and past the end is the start. -/
def advance (img : Image) (o : Opened) (nbytes : Int) : Nat :=
  let position := u32 (o.position + (readData img o.inode o.position (ofInt32 nbytes)).ret)
  if position > fileSize img o.inode then 0 else position

/-- `read`: only a regular file's position changes. -/
def read (img : Image) (table : DescriptorTable) (fd nbytes : Int) : DescriptorTable :=
  match present : table.entries fd with
  | none => table
  | some o =>
    if file : o.table = .file ∧ 2 ≤ fd then
      table.set fd ⟨file.2, (table.range fd o present).2⟩
        (some { o with position := advance img o nbytes })
        fun _ same => Option.some.inj same ▸ .inr (.inr file.1)
    else table

/-- Where no number is free, nothing can be opened. -/
theorem open_full {table : DescriptorTable} (d : Dentry) (full : table.lowest = none) :
    table.open (some d) = (-1, table) := by
  simp only [DescriptorTable.open]
  -- Where the search fails, the answer is the error.
  split
  · rfl
  · rename_i taken
    rw [full] at taken
    cases taken

/-- Where a number is free, it is handed out, and stands for what was found. -/
theorem open_some {table : DescriptorTable} {fd : Nat} (d : Dentry)
    (free : table.lowest = some fd) :
    (table.open (some d)).1 = fd ∧
      (table.open (some d)).2.entries = Function.update table.entries fd (some (opened d)) := by
  simp only [DescriptorTable.open]
  split
  · rename_i none
    rw [free] at none
    cases none
  · rename_i number found
    obtain rfl : fd = number := Option.some.inj (free.symm.trans found)
    exact ⟨rfl, rfl⟩

/-- Nothing is opened exactly when nothing was found, or all six numbers are taken. -/
theorem open_refused {table : DescriptorTable} {what : Option Dentry} :
    (table.open what).1 = -1 ↔
      what = none ∨ ∀ fd : Nat, 2 ≤ fd → fd ≤ maxFd → table.entries fd ≠ none := by
  rw [← lowest_eq_none]
  -- Two things can be missing: the name, and a free number.
  cases what with
  | none => simp [DescriptorTable.open]
  | some d =>
    cases free : table.lowest with
    | none => simp [open_full d free]
    | some fd =>
      -- A number that is handed out is not negative.
      rw [(open_some d free).1]
      simp only [reduceCtorEq, or_self]

/-- Exactly the numbers above standard output that stand for something can be closed. -/
theorem close_accepted {table : DescriptorTable} {fd : Int} :
    (table.close fd).1 = 0 ↔ (2 ≤ fd ∧ fd ≤ maxFd) ∧ table.entries fd ≠ none := by
  unfold DescriptorTable.close
  -- Where the number is accepted the answer is zero, and else it is the error.
  split
  · rename_i taken
    exact ⟨fun _ => taken, fun _ => rfl⟩
  · rename_i free
    exact ⟨fun accepted => by simp at accepted, fun taken => absurd taken free⟩

/-- A read of anything but a regular file leaves the table alone. -/
theorem read_other {img : Image} {table : DescriptorTable} {fd nbytes : Int}
    (other : ∀ o, table.entries fd = some o → o.table ≠ .file) :
    table.read img fd nbytes = table := by
  -- A closed number, and one of another kind, leave the table alone.
  unfold DescriptorTable.read
  split
  · rfl
  · rename_i o present
    exact dif_neg fun file => other o present file.1

/-- A read of a regular file moves its position. -/
theorem read_file {img : Image} {table : DescriptorTable} {fd nbytes : Int} {o : Opened}
    (present : table.entries fd = some o) (file : o.table = .file) :
    (table.read img fd nbytes).entries =
      Function.update table.entries fd (some { o with position := advance img o nbytes }) := by
  -- Standard input and output are no regular files.
  have above : 2 ≤ fd := by
    obtain ⟨low, -⟩ := table.range fd o present
    rcases (by omega : fd = 0 ∨ fd = 1 ∨ 2 ≤ fd) with zero | one | above
    · rw [zero, table.input, Option.some.injEq] at present
      rw [← present] at file
      cases file
    · rw [one, table.output, Option.some.injEq] at present
      rw [← present] at file
      cases file
    · exact above
  unfold DescriptorTable.read
  split
  · rename_i absent
    rw [present] at absent
    cases absent
  · rename_i found same
    obtain rfl : o = found := Option.some.inj (present.symm.trans same)
    rw [dif_pos ⟨file, above⟩]
    rfl

end DescriptorTable

/-- What `open` makes of a name: the empty name is never looked up. -/
def lookup (img : Image) (filename : List Byte) : Option Dentry :=
  if filename = [] then none else readDentryByName img (cstr filename)

end SmallOs
