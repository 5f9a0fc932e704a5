import SmallOs.Foundation.PageTables
import SmallOs.Kernel.Console

/-! The page directory and page table of `initpaging.c`. -/

namespace SmallOs

open Foundation

/-- `all_o`: present, writable, user, four megabytes. -/
def allO : Nat := 0x87

/-- `read_write`: present, writable, user. -/
def readWrite : Nat := 0x07

/-- `present_rw`. -/
def presentRw : Nat := 3

/-- `nopresent_rw` and `no_rw`. -/
def nopresentRw : Nat := 2

/-- The page directory entry of the user page at 128 megabytes. -/
def userPde : Nat := 32

/-- The page directory entry of the region at 132 megabytes. -/
def vidPde : Nat := 33

/-- The directory `paging_initialize` fills, where `tableAddr` is the address of `first_page_table`. -/
def initialDirectory (tableAddr : Nat) : Nat → Nat :=
  fun i =>
    -- The first entry is a table, the second the kernel's own page, and the rest is absent.
    if i = 0 then tableAddr ||| presentRw
    else if i = 1 then 0x400000 ||| 0x83
    else nopresentRw

/-- The table `paging_initialize` fills and `teminial_map_pages` extends by the backing pages. -/
def initialTable : Nat → Nat :=
  fun i =>
    -- The live screen and the three backing pages are present.
    if 0xB8 ≤ i ∧ i ≤ 0xBB then (0x1000 * i) ||| presentRw else (0x1000 * i) ||| nopresentRw

/-- `map_to_user_phy`, whose two other arguments only repeat the constants. -/
def mapToUserPhy (s : Kernel) (programNumber programSize : Nat) : Kernel :=
  let curAddress := u32 (programSize * u32 (programNumber + 2))
  { s with pageDirectory := Function.update s.pageDirectory userPde (curAddress ||| allO) }

/-- `vur_phy`, called with the virtual address of the user page. -/
def vurPhy (s : Kernel) (phy : Nat) : Kernel :=
  let pdeIndex := 0x8000000 / 0x400000
  { s with pageDirectory := Function.update s.pageDirectory pdeIndex (u32 phy ||| allO) }

/-- `map_to_vid`, whose virtual address argument is not used. -/
def mapToVid (s : Kernel) (tableAddr phyAddress : Nat) : Kernel :=
  { s with
    pageDirectory := Function.update s.pageDirectory vidPde (tableAddr ||| readWrite)
    firstPageTable := Function.update s.firstPageTable 0 (phyAddress ||| readWrite) }

/-- The physical frame the user page is mapped to. -/
def userFrame (s : Kernel) : Nat :=
  0x400000 * (s.pageDirectory userPde / 0x400000)

namespace Kernel

/-- The page tables by their address: `first_page_table` is the only one. -/
def tables (s : Kernel) (tableAddr : Nat) : Nat → Nat → Nat :=
  fun address => if address = tableAddr then s.firstPageTable else fun _ => 0

/-- The translation of a virtual page in a state of the kernel. -/
def translation (s : Kernel) (tableAddr page : Nat) : Option I386.Translation :=
  I386.translate s.pageDirectory (s.tables tableAddr) page

/--
A store of the kernel to an address does not fault.

The kernel runs without write protection, so it may store to every page that is present.
-/
def Present (s : Kernel) (tableAddr address : Nat) : Prop :=
  (s.translation tableAddr (address / 0x1000)).isSome = true

instance (s : Kernel) (tableAddr address : Nat) : Decidable (s.Present tableAddr address) :=
  inferInstanceAs (Decidable (_ = _))

end Kernel

end SmallOs
