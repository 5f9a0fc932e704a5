import Mathlib.Data.List.TakeWhile
import SmallOs.Proofs.FileSystem.ReadData
import SmallOs.Proofs.Process.Accounting

/-! One place in the directory listing for every descriptor, and when each still gets a listing of its own. -/

namespace SmallOs

open Foundation

/-- The name of a directory entry, up to its first NUL. -/
def entryText (img : Image) (i : Nat) : List Byte :=
  textFrom (img.entryName i) 0 32

/-- Past the last entry a directory read returns nothing, and the place goes back to the start. -/
theorem dirRead_end {img : Image} {s : Kernel} (past : ¬ s.dirReadLoc < img.numDentry) :
    dirRead img s = ⟨0, [], { s with dirReadLoc := 0 }⟩ := by
  simp only [dirRead, readDentryByIndex, if_pos (Nat.le_of_not_lt past)]

/-- The bytes of an entry's copy are its text, and NULs up to the bound. -/
theorem dentryBytes_text (img : Image) (i fileType inode : Nat) :
    textFrom (dentryBytes ⟨strncpy (img.entryName i) 32, fileType, inode⟩) 0 32 =
      entryText img i := by
  -- The copy of the name fills the thirty-two bytes, so the type behind it is not reached.
  refine textFrom_of_copy fun k inside => ?_
  have filled : k < (strncpy (img.entryName i) 32).length := by
    rw [strncpy_length]
    exact inside
  rw [dentryBytes, List.getD_eq_getElem?_getD, List.getElem?_append_left filled,
    ← List.getD_eq_getElem?_getD]

/-- Before the last entry a directory read returns the name at its place, and moves on by one. -/
theorem dirRead_entry {img : Image} {s : Kernel} (before : s.dirReadLoc < img.numDentry) :
    (dirRead img s).ret = (entryText img s.dirReadLoc).length ∧
      (dirRead img s).bytes.take (entryText img s.dirReadLoc).length =
        entryText img s.dirReadLoc ∧
      (dirRead img s).kernel = { s with dirReadLoc := s.dirReadLoc + 1 } := by
  have found : readDentryByIndex img s.dirReadLoc = some ⟨strncpy (img.entryName s.dirReadLoc) 32,
      img.entryType s.dirReadLoc, img.entryInode s.dirReadLoc⟩ := if_neg (by omega)
  have text := dentryBytes_text img s.dirReadLoc (img.entryType s.dirReadLoc)
    (img.entryInode s.dirReadLoc)
  -- `strlen` stops at the NUL, or where the thirty-two bytes end.
  have length : strlen (dentryBytes ⟨strncpy (img.entryName s.dirReadLoc) 32,
      img.entryType s.dirReadLoc, img.entryInode s.dirReadLoc⟩) 32 =
        (entryText img s.dirReadLoc).length := by
    rw [strlen, strlenFrom_eq_length, text, Nat.zero_add]
  simp only [dirRead, found, length]
  refine ⟨trivial, ?_, trivial⟩
  -- The copy is one byte longer than the name, and starts with it.
  have reads := fun k => textFrom_get (dentryBytes ⟨strncpy (img.entryName s.dirReadLoc) 32,
    img.entryType s.dirReadLoc, img.entryInode s.dirReadLoc⟩) 0 32 (k := k)
  rw [text] at reads
  rw [List.take_append_of_le_length (by simp), strncpy,
    strncpyFrom_take _ 0 (Nat.le_succ _) fun k inside => (reads k inside).2]
  refine List.ext_getElem? fun k => ?_
  by_cases inside : k < (entryText img s.dirReadLoc).length
  · rw [(reads k inside).1]
    simp [inside]
  · simp [inside]

/-- The running process has a directory open under a number. -/
def ReadsDirectory (s : Kernel) (fd : Int) : Prop :=
  ValidFd fd ∧ (s.curPcb.fd fd.toNat).flags ≠ 0 ∧ (s.curPcb.fd fd.toNat).opTable = some .dir

instance (s : Kernel) (fd : Int) : Decidable (ReadsDirectory s fd) :=
  inferInstanceAs (Decidable (¬ (fd < 0 ∨ fd > maxFd) ∧ _ ∧ _))

/-- A read of a directory is answered by the directory's driver. -/
theorem readFile_directory (img : Image) {s : Kernel} {fd : Int} (nbytes : Int)
    (mapped : Mapped s.scheduled.curPcb) (directory : ReadsDirectory s fd) :
    readFile img s fd nbytes =
      some ⟨.returned (dirRead img s).ret, (dirRead img s).bytes, (dirRead img s).kernel⟩ := by
  obtain ⟨inside, used, points⟩ := directory
  simp only [readFile]
  rw [if_neg inside, if_pos mapped, if_neg used, points]
  rfl

/-- A plain call other than the read of a directory leaves the place in the listing alone. -/
theorem PlainStep.dirReadLoc {s next : Kernel} {request : Call} (step : PlainStep s request next)
    (other : ∀ fd buf nbytes, request = .read fd buf nbytes → ¬ ReadsDirectory s fd) :
    next.dirReadLoc = s.dirReadLoc := by
  -- A file keeps its place in its own descriptor.
  cases step with
  | kept | position | awaited | rate | opened | closed | view => rfl
  | line => exact (screenOnly_takeLine s).agree Kernel.dirReadLoc fun _ => rfl
  | written => exact (screenOnly_terminalWrite s _ _).agree Kernel.dirReadLoc fun _ => rfl
  | listing reads =>
    cases request with
    | read fd buf nbytes =>
      obtain ⟨inside, -, used, points⟩ := reads
      exact absurd ⟨inside, used, points⟩ (other fd buf nbytes rfl)
    | halt | execute | write | «open» | close | getargs | vidmap => exact reads.elim

/-- Only the read of a directory moves the place in the listing. -/
theorem dirReadLoc_kept {env : Env} {s next : Kernel} {event : Event}
    (taken : step env s event = some next)
    (other : ∀ frame fd buf nbytes, event = .call frame (.read fd buf nbytes) →
      ¬ ReadsDirectory s fd) : next.dirReadLoc = s.dirReadLoc := by
  -- The place belongs to no screen and to no process.
  rcases apart_cases taken with same | rfl | ⟨frame, request, result, rfl, -, plain, same⟩
  · exact congrArg Apart.dirReadLoc same
  · cases taken
    rfl
  · refine (congrArg Apart.dirReadLoc same).trans ?_
    refine plain.dirReadLoc fun fd buf nbytes same => ?_
    exact other frame fd buf nbytes (congrArg (Event.call frame) same)

/-- Whose listing stopped short of its end when a directory was last read. -/
inductive Unfinished where
  | nobody
  /-- That of a descriptor that has been opened anew since. -/
  | abandoned
  /-- That of a descriptor, named by its control block and its number. -/
  | «by» (descriptor : Nat × Nat)
  deriving DecidableEq

/-- What an observer remembers of the directory reads of every descriptor. -/
structure Listings where
  /-- The entries a descriptor was given since it was opened, or since its last listing ended. -/
  given : Nat × Nat → Nat
  unfinished : Unfinished

namespace Listings

/-- At boot no directory has been read. -/
def initial : Listings :=
  ⟨fun _ => 0, .nobody⟩

/-- A descriptor is opened: its listing starts anew, and what it left unfinished stays so. -/
def «open» (h : Listings) (key : Nat × Nat) : Listings :=
  ⟨Function.update h.given key 0, if h.unfinished = .by key then .abandoned else h.unfinished⟩

/-- A descriptor's listing goes on by one entry, or ends. -/
def read (h : Listings) (count : Nat) (key : Nat × Nat) : Listings :=
  if h.given key < count then ⟨Function.update h.given key (h.given key + 1), .by key⟩
  else ⟨Function.update h.given key 0, .nobody⟩

/-- What the observer remembers after a step: the opens and the directory reads of every process. -/
def after (img : Image) (h : Listings) (s : Kernel) (event : Event) (_ : Kernel) : Listings :=
  match event with
  | .call _ (.open filename) =>
    match openFile img s filename with
    | some ⟨.returned fd, _, _⟩ => if 0 ≤ fd then h.open (s.scheduled.curPcb, fd.toNat) else h
    | _ => h
  | .call _ (.read fd _ _) =>
    if ReadsDirectory s fd then h.read img.numDentry (s.scheduled.curPcb, fd.toNat) else h
  | _ => h

end Listings

/-- No directory is read while the listing of another descriptor is unfinished. -/
def Undisturbed (state : Kernel × Listings) : Event → Prop
  | .call _ (.read fd _ _) => ReadsDirectory state.1 fd →
      state.2.unfinished = .nobody ∨
        state.2.unfinished = .by (state.1.scheduled.curPcb, fd.toNat)
  | _ => True

/-- The kernel's one place in the listing is that of the only descriptor whose listing is unfinished. -/
structure InPlace (s : Kernel) (h : Listings) : Prop where
  start : h.unfinished = .nobody → s.dirReadLoc = 0
  place : ∀ key, h.unfinished = .by key → s.dirReadLoc = h.given key
  others : ∀ key, h.unfinished ≠ .by key → h.given key = 0

namespace InPlace

variable {s next : Kernel} {h : Listings}

/-- A descriptor that may be read stands at the kernel's place. -/
theorem place_eq (held : InPlace s h) {key : Nat × Nat}
    (alone : h.unfinished = .nobody ∨ h.unfinished = .by key) : s.dirReadLoc = h.given key := by
  -- Either the kernel is at the start, as the descriptor is, or the place is its own.
  rcases alone with nobody | mine
  · rw [held.start nobody, held.others key (by simp [nobody])]
  · exact held.place key mine

/-- Opening a descriptor moves nothing, and gives up what was unfinished under its number. -/
theorem «open» (held : InPlace s h) (same : next.dirReadLoc = s.dirReadLoc) (key : Nat × Nat) :
    InPlace next (h.open key) := by
  unfold Listings.open
  by_cases mine : h.unfinished = .by key
  · rw [if_pos mine]
    refine ⟨fun nobody => by simp at nobody, fun other there => by simp at there,
      fun other _ => ?_⟩
    by_cases here : other = key
    · simp [here]
    · have apart : h.unfinished ≠ .by other := by
        rw [mine]
        exact fun equal => here (Unfinished.by.inj equal).symm
      simpa [here] using held.others other apart
  · rw [if_neg mine]
    refine ⟨fun nobody => same.trans (held.start nobody), fun other there => ?_,
      fun other apart => ?_⟩
    · have here : other ≠ key := fun equal => mine (equal ▸ there)
      rw [same, held.place other there]
      simp [here]
    · by_cases here : other = key
      · simp [here]
      · simpa [here] using held.others other apart

/-- A descriptor that may be read gets its next entry, or the end. -/
theorem read {img : Image} (held : InPlace s h) {key : Nat × Nat}
    (alone : h.unfinished = .nobody ∨ h.unfinished = .by key) :
    InPlace (dirRead img s).kernel (h.read img.numDentry key) := by
  have here := held.place_eq alone
  -- Whoever else may have begun a listing has finished it.
  have others : ∀ other ≠ key, h.given other = 0 := by
    intro other apart
    refine held.others other ?_
    rcases alone with nobody | mine
    · simp [nobody]
    · rw [mine]
      exact fun equal => apart (Unfinished.by.inj equal).symm
  unfold Listings.read
  split
  · rename_i before
    rw [(dirRead_entry (here ▸ before)).2.2]
    refine ⟨fun nobody => by simp at nobody, fun other there => ?_, fun other apart => ?_⟩
    · obtain rfl := Unfinished.by.inj there
      simp [here]
    · have differ : other ≠ key := fun equal => apart (by rw [equal])
      simpa [differ] using others other differ
  · rename_i past
    rw [dirRead_end (here ▸ past)]
    refine ⟨fun _ => rfl, fun other there => by simp at there, fun other _ => ?_⟩
    by_cases differ : other = key
    · simp [differ]
    · simpa [differ] using others other differ

/-- Every admitted step keeps the place. -/
theorem step {env : Env} {event : Event} (held : InPlace s h) (met : Undisturbed (s, h) event)
    (taken : step env s event = some next) : InPlace next (h.after env.image s event next) := by
  -- Where neither the kernel's place nor the observer's memory changes, nothing is to be shown.
  have still : next.dirReadLoc = s.dirReadLoc → InPlace next h := fun same =>
    ⟨fun nobody => same.trans (held.start nobody), fun key there => same.trans (held.place key there),
      held.others⟩
  cases event with
  | keyboard | pit | rtc => exact still (dirReadLoc_kept taken fun _ _ _ _ => Event.noConfusion)
  | call frame request =>
    cases request with
    -- A process that ends leaves the place where its listing stopped.
    | halt | execute | write | close | getargs | vidmap =>
      exact still (dirReadLoc_kept taken fun _ _ _ _ same => by cases same)
    | «open» filename =>
      have same := dirReadLoc_kept taken fun _ _ _ _ same => by cases same
      simp only [Listings.after]
      split
      · split
        · exact held.open same _
        · exact still same
      · exact still same
    | read fd buf nbytes =>
      simp only [Listings.after]
      by_cases directory : ReadsDirectory s fd
      · rw [if_pos directory]
        obtain ⟨result, frames, done, -, rfl⟩ := call_taken taken
        have kernel : result.kernel = (dirRead env.image s).kernel := by
          obtain ⟨inside, used, points⟩ := directory
          cases readFile_cases done with
          | range outside => exact absurd inside outside
          | closed _ _ free => exact absurd free used
          | driver _ _ _ there answered =>
            rw [points, Option.some.injEq] at there
            subst there
            obtain rfl := Option.some.inj answered
            rfl
        rw [kernel]
        -- What the read stores is no part of the listing.
        have read : InPlace (dirRead env.image s).kernel
            (h.read env.image.numDentry (s.scheduled.curPcb, _)) := held.read (met directory)
        exact ⟨read.start, read.place, read.others⟩
      · rw [if_neg directory]
        refine still (dirReadLoc_kept taken fun _ _ _ _ same => ?_)
        cases same
        exact directory

end InPlace

/-- A read gives a descriptor the entry that is next in its own listing, or its end. -/
def GivesEntry (img : Image) (i : Nat) (result : CallResult) : Prop :=
  if i < img.numDentry then
    result.outcome = .returned (entryText img i).length ∧
      result.stores.take (entryText img i).length = entryText img i
  else result.outcome = .returned 0 ∧ result.stores = []

/--
Every directory read of an admitted run gives its descriptor the next entry of its own listing.

A descriptor is given the entries from the first on after it is opened, each once, and then the
end. A run is admitted while no directory is read in the middle of another descriptor's listing.
-/
theorem directory_enumerated {env : Env} {start s : Kernel} {h : Listings} {events : List Event}
    {frame : CallFrame} {fd nbytes : Int} {buf : Nat} (booted : boot env = some start)
    (run : Run (observed (step env) (Listings.after env.image)) Undisturbed
      (start, Listings.initial) events (s, h))
    (first : s.scheduled.firstProcess = true) (directory : ReadsDirectory s fd)
    (met : Undisturbed (s, h) (.call frame (.read fd buf nbytes))) :
    ∃ result, syscall env s frame (.read fd buf nbytes) = some result ∧
      GivesEntry env.image (h.given (s.scheduled.curPcb, fd.toNat)) result := by
  have place : start.dirReadLoc = 0 := by
    obtain ⟨_, ⟨entered⟩⟩ := boot_entered booted
    exact congrArg Apart.dirReadLoc entered.apart
  have held := run.observed_invariant InPlace
    ⟨fun _ => place, fun _ there => Unfinished.noConfusion there, fun _ _ => rfl⟩
    fun _ _ _ _ held met taken => held.step met taken
  have reach : Reachable env s := ⟨start, events, booted, run.unobserved⟩
  -- A running process is accounted for, so its control block can be read.
  obtain ⟨path, acc⟩ := reach.accounting
  obtain ⟨pointer, member⟩ := acc.pointed s.currTerminal first
  have mapped : Mapped s.scheduled.curPcb := by
    rw [show s.scheduled.curPcb = _ from pointer]
    exact mapped_pcbAddr (acc.live member).1
  refine ⟨_, readFile_directory env.image nbytes mapped directory, ?_⟩
  have here := held.place_eq (met directory)
  unfold GivesEntry
  rw [← here]
  split
  · rename_i before
    obtain ⟨length, text, -⟩ := dirRead_entry before
    rw [length]
    exact ⟨rfl, text⟩
  · rename_i past
    rw [dirRead_end past]
    exact ⟨rfl, rfl⟩

/-- The directory entry of the sample's directory itself. -/
def sampleDot : Dentry :=
  ⟨ascii ['.'] ++ List.replicate 31 0, 1, 0⟩

/-- The sample after its directory was opened under a number. -/
def sampleDirectory (s : Kernel) (fd : Nat) : Kernel :=
  setDescriptor s fd (openDescriptor sampleDot)

/-- Opening the sample's directory under the first free number, as its observer sees it. -/
theorem sampleDirectory_observed (s : Kernel) (h : Listings) (fd : Nat)
    (mapped : Mapped s.scheduled.curPcb)
    (free : ([2, 3, 4, 5, 6, 7].find? fun i => (s.curPcb.fd i).flags = 0) = some fd) :
    observed (step sampleEnv) (Listings.after sampleImage) (s, h)
      (.call sampleFrame (.open (ascii ['.']))) =
        some (sampleDirectory s fd, h.open (s.scheduled.curPcb, fd)) := by
  have found : readDentryByName sampleImage (cstr (ascii ['.'])) = some sampleDot := by
    decide +kernel
  have opened : openFile sampleImage s (ascii ['.']) =
      some (plainReturn fd (sampleDirectory s fd)) := by
    simp only [openFile, found, if_pos mapped, free, sampleDirectory]
    rfl
  have done : syscall sampleEnv s sampleFrame (.open (ascii ['.'])) =
      some (plainReturn fd (sampleDirectory s fd)) := opened
  have taken : step sampleEnv s (.call sampleFrame (.open (ascii ['.']))) =
      some (sampleDirectory s fd) := step_nothing done rfl
  simp only [observed, taken, Listings.after, opened, Option.map_some, plainReturn]
  simp

/-- The sample with its directory open once. -/
def sampleOnce : Kernel :=
  sampleDirectory sampleBooted 2

/-- A freshly opened directory gives its first entry while it is the only one in use. -/
theorem directory_enumerated_sample : ∃ result,
    syscall sampleEnv sampleOnce sampleFrame (.read 2 0x8000000 33) = some result ∧
      GivesEntry sampleImage 0 result := by
  have opened := sampleDirectory_observed sampleBooted Listings.initial 2
    (by decide +kernel) (by decide +kernel)
  have directory : ReadsDirectory sampleOnce 2 := by decide +kernel
  have admitted : Undisturbed (sampleBooted, Listings.initial)
      (.call sampleFrame (.open (ascii ['.']))) := trivial
  exact directory_enumerated sample_boot (.snoc (.nil _) admitted opened) (by decide +kernel)
    directory fun _ => .inl rfl

/-- The observer's memory once the first of the sample's two descriptors was read. -/
def sampleListings : Listings :=
  ((Listings.initial.open (sampleBooted.scheduled.curPcb, 2)).open
    (sampleOnce.scheduled.curPcb, 3)).read sampleImage.numDentry
      ((sampleDirectory sampleOnce 3).scheduled.curPcb, 2)

/-- The sample with its directory open twice, and read through the first of its descriptors. -/
def sampleReadOnce : Kernel :=
  let s := sampleDirectory sampleOnce 3
  let read := dirRead sampleImage s
  CallResult.stored ⟨.returned read.ret, read.bytes, read.kernel⟩ s 0x8000000

/-- A descriptor never read before is given the second entry, because another one was read. -/
theorem directory_entry_skipped : sampleImage.WellFormed ∧
    Run (observed (step sampleEnv) (Listings.after sampleImage)) Always
      (sampleBooted, Listings.initial)
      [.call sampleFrame (.open (ascii ['.'])), .call sampleFrame (.open (ascii ['.'])),
        .call sampleFrame (.read 2 0x8000000 33)] (sampleReadOnce, sampleListings) ∧
    ReadsDirectory sampleReadOnce 3 ∧
    sampleListings.given (sampleReadOnce.scheduled.curPcb, 3) = 0 ∧
    ∃ result, syscall sampleEnv sampleReadOnce sampleFrame (.read 3 0x8000000 33) = some result ∧
      result.outcome = .returned (entryText sampleImage 1).length ∧
      ¬ GivesEntry sampleImage 0 result := by
  have first := sampleDirectory_observed sampleBooted Listings.initial 2
    (by decide +kernel) (by decide +kernel)
  have second := sampleDirectory_observed sampleOnce
    (Listings.initial.open (sampleBooted.scheduled.curPcb, 2)) 3 (by decide +kernel)
    (by decide +kernel)
  have directory : ReadsDirectory (sampleDirectory sampleOnce 3) 2 := by decide +kernel
  have third : observed (step sampleEnv) (Listings.after sampleImage)
      (sampleDirectory sampleOnce 3,
        (Listings.initial.open (sampleBooted.scheduled.curPcb, 2)).open
          (sampleOnce.scheduled.curPcb, 3)) (.call sampleFrame (.read 2 0x8000000 33)) =
      some (sampleReadOnce, sampleListings) := by
    have done : syscall sampleEnv (sampleDirectory sampleOnce 3) sampleFrame
        (.read 2 0x8000000 33) = _ :=
      readFile_directory sampleEnv.image 33 (by decide +kernel) directory
    have stored : (dirRead sampleEnv.image (sampleDirectory sampleOnce 3)).bytes.length = 33 := by
      decide +kernel
    have taken := step_stored done rfl ⟨Nat.le_refl _, by rw [stored]; decide⟩
    simp only [observed, taken, Listings.after, if_pos directory, Option.map_some]
    rfl
  have other : ReadsDirectory sampleReadOnce 3 := by decide +kernel
  have before : sampleReadOnce.dirReadLoc < sampleImage.numDentry := by decide +kernel
  have done := readFile_directory sampleEnv.image 33 (by decide +kernel) other
  -- The first descriptor was given one entry, and the place is shared.
  have place : sampleReadOnce.dirReadLoc = 1 := by decide +kernel
  have entry := (dirRead_entry before).1
  rw [place] at entry
  refine ⟨sampleImage_wellFormed, .snoc (.snoc (.snoc (.nil _) trivial first) trivial second)
    trivial third, other, by decide +kernel, _, done, congrArg _ entry, fun given => ?_⟩
  -- The first entry is one letter long, and the second one five.
  have lengths : 0 < sampleImage.numDentry ∧ (entryText sampleImage 0).length = 1 ∧
      (entryText sampleImage 1).length = 5 := by decide +kernel
  rw [GivesEntry, if_pos lengths.1, lengths.2.1] at given
  have answer := congrArg Outcome.returned entry
  rw [lengths.2.2] at answer
  have clash := answer.symm.trans given.1
  simp at clash

end SmallOs
