import SmallOs.Foundation.PageTables
import SmallOs.Proofs.Process.VideoView

/-! What `vidmap` changes besides the page at 132 megabytes: the low page table is used twice. -/

namespace SmallOs

open Foundation Foundation.I386

/-- The number of the page at 132 megabytes. -/
def vidPage : Nat := vidAddr / 0x1000

/-- Two states translate every page but the one at 132 megabytes alike. -/
def SameElsewhere (tableAddr : Nat) (s next : Kernel) : Prop :=
  ∀ page < 2 ^ 20, page ≠ vidPage → next.translation tableAddr page = s.translation tableAddr page

/-- What a call of `vidmap` should leave as it is. -/
structure VidmapFrame (tableAddr : Nat) (s next : Kernel) : Prop where
  elsewhere : SameElsewhere tableAddr s next
  /-- An access through a null pointer still faults. -/
  null : next.translation tableAddr 0 = none
  /-- No other page of the region becomes mapped. -/
  region : ∀ page, vidPage < page → page < vidPage + 1024 → s.translation tableAddr page = none →
    next.translation tableAddr page = none

/-- The entries of the region are those `vidmap` writes for the displayed terminal. -/
def MapsDisplayed (tableAddr : Nat) (s : Kernel) : Prop :=
  s.view = (tableAddr ||| readWrite, videoPtr s.currentId ||| readWrite)

/-- The paging entries of every reachable state, apart from that of the user page. -/
structure LowTables (tableAddr : Nat) (parts : Apart) : Prop where
  low : parts.pageDirectory 0 = tableAddr ||| presentRw
  pages : ∀ i, i ≠ 0 → parts.firstPageTable i = initialTable i
  /-- The region is absent as at boot, or mapped for some terminal. -/
  view : parts.pageDirectory vidPde = nopresentRw ∧ parts.firstPageTable 0 = initialTable 0 ∨
    ∃ t, parts.pageDirectory vidPde = tableAddr ||| readWrite ∧
      parts.firstPageTable 0 = videoPtr t ||| readWrite

section Reachable

variable {env : Env} {s next : Kernel}

/-- A plain call other than `vidmap` writes no paging entry. -/
theorem PlainStep.keepsTables {request : Call} (step : PlainStep s request next)
    (other : ∀ address, request ≠ .vidmap address) :
    next.apart.pageDirectory = s.apart.pageDirectory ∧
      next.apart.firstPageTable = s.apart.firstPageTable := by
  cases step with
  | kept | listing | position | awaited | rate | opened | closed => exact ⟨rfl, rfl⟩
  | line =>
    have same := (screenOnly_takeLine s).apart
    exact ⟨congrArg Apart.pageDirectory same, congrArg Apart.firstPageTable same⟩
  | @written fd nbytes text =>
    have same := (screenOnly_terminalWrite s text nbytes).apart
    exact ⟨congrArg Apart.pageDirectory same, congrArg Apart.firstPageTable same⟩
  | @view address => exact absurd rfl (other address)

namespace LowTables

/-- The entries after an accepted call of `vidmap`. -/
theorem mapped (tables : LowTables env.tableAddr s.apart) (t : Terminal) :
    LowTables env.tableAddr (mapToVid s env.tableAddr (videoPtr t)).apart := by
  refine ⟨?_, fun i other => ?_, .inr ⟨t, ?_, ?_⟩⟩
  · exact tables.low
  · exact (Function.update_of_ne other _ _).trans (tables.pages i other)
  · simp [Kernel.apart, mapToVid, userPde, vidPde]
  · simp [Kernel.apart, mapToVid]

/-- Every step keeps the form of the entries. -/
theorem step {event : Event} (tables : LowTables env.tableAddr s.apart)
    (taken : SmallOs.step env s event = some next) : LowTables env.tableAddr next.apart := by
  have carry : next.apart.pageDirectory = s.apart.pageDirectory →
      next.apart.firstPageTable = s.apart.firstPageTable → LowTables env.tableAddr next.apart := by
    intro directory table
    exact ⟨directory ▸ tables.low, table ▸ tables.pages, directory ▸ table ▸ tables.view⟩
  rcases apart_cases taken with same | clock |
    ⟨frame, request, result, called, done, plain, parts⟩
  · exact carry (congrArg Apart.pageDirectory same) (congrArg Apart.firstPageTable same)
  · subst clock
    cases taken
    exact carry rfl rfl
  · subst called
    by_cases vidmaps : ∃ address, request = .vidmap address
    · -- The call itself says which page it maps.
      obtain ⟨address, rfl⟩ := vidmaps
      rw [parts]
      cases vidmap_cases done with
      | mapped => exact tables.mapped s.currentId
      | refused => exact tables
    · obtain ⟨directory, table⟩ := plain.keepsTables fun address same => vidmaps ⟨address, same⟩
      exact carry (parts ▸ directory) (parts ▸ table)

/-- The entries of a reachable state. -/
theorem reachable (reach : Reachable env s) : LowTables env.tableAddr s.apart := by
  refine reach.invariant (fun s => LowTables env.tableAddr s.apart) (fun start booted => ?_)
    fun before event after tables taken => tables.step taken
  -- At boot they are those of `paging_initialize`.
  obtain ⟨_, ⟨entered⟩⟩ := boot_entered booted
  rw [entered.apart]
  exact ⟨rfl, fun _ _ => rfl, .inl ⟨rfl, rfl⟩⟩

end LowTables

end Reachable

section Translations

variable {tableAddr : Nat} {s : Kernel}

/-- A page whose directory entry leads to the low page table is translated there. -/
theorem translation_low (aligned : 0x1000 ∣ tableAddr) {flags page : Nat} (small : flags < 0x1000)
    (here : present flags = true) (fine : large flags = false)
    (entry : s.pageDirectory (page / 1024) = tableAddr ||| flags) :
    s.translation tableAddr page =
      if present (s.firstPageTable (page % 1024)) then
        some ⟨s.firstPageTable (page % 1024) / 0x1000,
          userLevel flags && userLevel (s.firstPageTable (page % 1024)),
          writable flags && writable (s.firstPageTable (page % 1024))⟩
      else none := by
  -- The flags of the entry are read back, and its address is that of the table.
  have flag : ∀ i < 12, (tableAddr ||| flags).testBit i = flags.testBit i :=
    fun i low => testBit_entry aligned low
  have table : s.tables tableAddr (0x1000 * ((tableAddr ||| flags) / 0x1000)) = s.firstPageTable := by
    rw [entry_address aligned small]
    exact if_pos rfl
  have mapped : present (tableAddr ||| flags) = true := (flag 0 (by omega)).trans here
  have fourKilobytes : large (tableAddr ||| flags) = false := (flag 7 (by omega)).trans fine
  have user : userLevel (tableAddr ||| flags) = userLevel flags := flag 2 (by omega)
  have write : writable (tableAddr ||| flags) = writable flags := flag 1 (by omega)
  rw [Kernel.translation, translate_table (by rw [entry]; exact mapped)
    (by rw [entry]; exact fourKilobytes), entry, table, user, write]

/-- The entry `map_to_vid` writes into the low table is present, and holds the page it was given. -/
theorem videoEntry (t : Terminal) : present (videoPtr t ||| readWrite) = true ∧
    (videoPtr t ||| readWrite) / 0x1000 = 0xB9 + t.val := by
  have all : ∀ t : Terminal, present (videoPtr t ||| readWrite) = true ∧
      (videoPtr t ||| readWrite) / 0x1000 = 0xB9 + t.val := by decide
  exact all t

/-- Both entries are the same already exactly when the call maps what is mapped. -/
theorem mapToVid_same (mapped : MapsDisplayed tableAddr s) :
    (mapToVid s tableAddr (videoPtr s.currentId)).pageDirectory = s.pageDirectory ∧
      (mapToVid s tableAddr (videoPtr s.currentId)).firstPageTable = s.firstPageTable := by
  obtain ⟨directory, table⟩ := Prod.ext_iff.mp mapped
  simp only [Kernel.view] at directory table
  constructor
  · rw [mapToVid, ← directory]
    exact Function.update_eq_self _ _
  · rw [mapToVid, ← table]
    exact Function.update_eq_self _ _

/-- After an accepted call the null page is mapped. -/
theorem null_mapped (tables : LowTables tableAddr s.apart) (aligned : 0x1000 ∣ tableAddr)
    (t : Terminal) : ((mapToVid s tableAddr (videoPtr t)).translation tableAddr 0).map
      Translation.frame = some (0xB9 + t.val) := by
  -- The slot that was meant for the region is also that of the first four kilobytes.
  obtain ⟨here, frame⟩ := videoEntry t
  have entry : (mapToVid s tableAddr (videoPtr t)).pageDirectory (0 / 1024) =
      tableAddr ||| presentRw := tables.low
  have cell : (mapToVid s tableAddr (videoPtr t)).firstPageTable (0 % 1024) =
      videoPtr t ||| readWrite := by simp [mapToVid]
  rw [translation_low aligned (by decide) (by decide) (by decide) entry, cell, if_pos here,
    Option.map_some, frame]

/-- If every other page is translated as before, the call has mapped what was mapped already. -/
theorem mapped_of_same (tables : LowTables tableAddr s.apart) (aligned : 0x1000 ∣ tableAddr)
    (same : SameElsewhere tableAddr s (mapToVid s tableAddr (videoPtr s.currentId))) :
    MapsDisplayed tableAddr s := by
  -- The null page is translated as before, so its slot held the same page before the call.
  have other : (0 : Nat) ≠ vidPage := by decide
  have before := null_mapped tables aligned s.currentId
  rw [same 0 (by decide) other, translation_low aligned (by decide) (by decide) (by decide)
    (show s.pageDirectory (0 / 1024) = tableAddr ||| presentRw from tables.low)] at before
  rcases tables.view with ⟨-, table⟩ | ⟨t, directory, table⟩
  · have cell : s.firstPageTable (0 % 1024) = initialTable 0 := table
    have absent : present (s.firstPageTable (0 % 1024)) = false := by
      rw [cell]
      decide
    rw [absent] at before
    cases before
  · have cell : s.firstPageTable (0 % 1024) = videoPtr t ||| readWrite := table
    obtain ⟨here, frame⟩ := videoEntry t
    rw [cell, if_pos here, Option.map_some, frame, Option.some.injEq] at before
    have numbers : 0xB9 + t.val = 0xB9 + s.currentId.val := before
    have displayed : t = s.currentId := Fin.ext (by omega)
    rw [MapsDisplayed, ← displayed]
    exact Prod.ext directory cell

end Translations

/--
No accepted call of `vidmap` that returns leaves the null page unmapped.

It translates every page but its own as before exactly when it maps what was mapped already, which
needs an earlier call for the same terminal.
-/
theorem vidmap_frame {env : Env} {s : Kernel} {address : Nat} {result : CallResult}
    (reach : Reachable env s) (aligned : 0x1000 ∣ env.tableAddr) (accepted : InUserPage address)
    (done : vidmap env s address = some result) :
    ¬ VidmapFrame env.tableAddr s result.kernel ∧
      (SameElsewhere env.tableAddr s result.kernel ↔ MapsDisplayed env.tableAddr s) := by
  have tables := LowTables.reachable reach
  have after : result.kernel = mapToVid s env.tableAddr (videoPtr s.currentId) := by
    cases vidmap_cases done with
    | refused outside => exact absurd accepted outside
    | mapped => rfl
  rw [after]
  refine ⟨fun frame => ?_, fun same => mapped_of_same tables aligned same, fun mapped page _ _ => ?_⟩
  · -- The null page is translated after the call.
    have null := null_mapped tables aligned s.currentId
    rw [frame.null] at null
    cases null
  · obtain ⟨directory, table⟩ := mapToVid_same mapped
    have reads : (mapToVid s env.tableAddr (videoPtr s.currentId)).tables env.tableAddr =
        s.tables env.tableAddr := by
      unfold Kernel.tables
      rw [table]
    rw [Kernel.translation, directory, reads]
    rfl

/-- The first call of the sample's shell. -/
theorem vidmap_frame_sample : vidmap sampleEnv sampleBooted 0x8000000 = some sampleView ∧
    ¬ VidmapFrame 0x5000 sampleBooted sampleView.kernel ∧
      (SameElsewhere 0x5000 sampleBooted sampleView.kernel ↔ MapsDisplayed 0x5000 sampleBooted) :=
  ⟨sampleView_done, vidmap_frame sample_reachable (by decide) (by decide) sampleView_done⟩

/--
After the first call an access through a null pointer reaches the backing page.

The live screen becomes mapped at a second page of the region too.
-/
theorem vidmap_maps_null : Reachable sampleEnv sampleBooted ∧ InUserPage 0x8000000 ∧
    vidmap sampleEnv sampleBooted 0x8000000 = some sampleView ∧
    sampleBooted.translation 0x5000 0 = none ∧
    sampleView.kernel.translation 0x5000 0 = some ⟨0xB9, false, true⟩ ∧
    sampleBooted.translation 0x5000 (vidPage + 0xB8) = none ∧
    sampleView.kernel.translation 0x5000 (vidPage + 0xB8) = some ⟨0xB8, false, true⟩ ∧
    ¬ VidmapFrame 0x5000 sampleBooted sampleView.kernel := by
  have null : sampleView.kernel.translation 0x5000 0 = some ⟨0xB9, false, true⟩ := by
    decide +kernel
  refine ⟨sample_reachable, by decide, sampleView_done, by decide +kernel, null, by decide +kernel,
    by decide +kernel, fun frame => ?_⟩
  rw [frame.null] at null
  cases null

end SmallOs
