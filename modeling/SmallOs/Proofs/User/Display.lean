import SmallOs.Foundation.Run
import SmallOs.Proofs.User.Blink

/-! When a light is lit, and when the screen shows what its lights are to show. -/

namespace SmallOs

open Foundation
open Foundation.I386 (Word)

/-- The ticks that a light stays lit or dark for: a length of zero, or above `0x8000`, is one tick. -/
def duration (length : BitVec 16) : Nat :=
  if 1 ≤ length.toNat ∧ length.toNat ≤ 2 ^ 15 then length.toNat else 1

/-- Whatever the length is, it takes a tick at least. -/
theorem duration_pos (length : BitVec 16) : 1 ≤ duration length := by
  unfold duration
  split <;> omega

namespace Light

variable {l : Light}

/-- A light changes with the last of its ticks. -/
theorem due_iff (l : Light) : l.Due ↔ duration l.left = 1 := by
  unfold Due duration
  -- The countdown wraps below zero, and is read as a signed number.
  have word := l.left.isLt
  have less : (l.left - 1).toNat = (l.left.toNat + 65535) % 65536 := by
    rw [BitVec.toNat_sub]
    exact congrArg (· % 65536) (Nat.add_comm _ _)
  rw [BitVec.toInt_eq_toNat_cond, less]
  split <;> split <;> omega

/-- Any other tick is one tick less. -/
theorem duration_left (early : ¬ l.Due) : duration (l.left - 1) + 1 = duration l.left := by
  rw [due_iff] at early
  have word := l.left.isLt
  have less : (l.left - 1).toNat = (l.left.toNat + 65535) % 65536 := by
    rw [BitVec.toNat_sub]
    exact congrArg (· % 65536) (Nat.add_comm _ _)
  unfold duration at early ⊢
  rw [less]
  split at early
  next inside =>
    rw [if_pos (by omega), if_pos inside]
    omega
  next => exact absurd rfl early

@[simp] theorem tick_location (l : Light) : l.tick.location = l.location := by
  unfold tick
  split <;> rfl

/-- Ticks leave a light where it is. -/
theorem ticks_location (n : Nat) (l : Light) : (Light.tick^[n] l).location = l.location := by
  induction n with
  | zero => rfl
  | succ n ih => rw [Function.iterate_succ_apply', tick_location, ih]

/-- A tick leaves the lengths of a light alone. -/
theorem tick_lengths (l : Light) :
    l.tick.onLength = l.onLength ∧ l.tick.offLength = l.offLength := by
  unfold tick
  split <;> exact ⟨rfl, rfl⟩

/-- A light at some tick of its period: the ticks before it, and the ticks that are left. -/
structure Phase (on off n : Nat) (l : Light) : Prop where
  onLength : duration l.onLength = on
  offLength : duration l.offLength = off
  /-- The ticks of whole periods, and of the lit part where the light is dark, were before. -/
  place : ∃ periods, n + duration l.left =
    (on + off) * periods + if l.lit then on else on + off
  bound : duration l.left ≤ if l.lit then on else off

/-- The next tick. -/
theorem Phase.tick {on off n : Nat} (phase : Phase on off n l) : Phase on off (n + 1) l.tick := by
  obtain ⟨onLength, offLength⟩ := l.tick_lengths
  obtain ⟨periods, place⟩ := phase.place
  have first := phase.onLength
  have second := phase.offLength
  have bound := phase.bound
  refine ⟨by rw [onLength, first], by rw [offLength, second], ?_, ?_⟩
  · by_cases due : l.Due
    · have last := (due_iff l).mp due
      simp only [Light.tick, if_pos due]
      cases lit : l.lit with
      | true =>
        simp only [lit, if_true] at place
        refine ⟨periods, ?_⟩
        simp only [if_true, Bool.not_true, Bool.false_eq_true, if_false, second]
        omega
      | false =>
        -- A dark light that changes begins the next period.
        simp only [lit, Bool.false_eq_true, if_false] at place
        refine ⟨periods + 1, ?_⟩
        rw [Nat.mul_succ]
        simp only [Bool.false_eq_true, if_false, Bool.not_false, if_true, first]
        omega
    · have less := duration_left due
      simp only [Light.tick, if_neg due]
      exact ⟨periods, by omega⟩
  · by_cases due : l.Due
    · simp only [Light.tick, if_pos due]
      cases l.lit with
      | true => exact second.le
      | false => exact first.le
    · have less := duration_left due
      simp only [Light.tick, if_neg due]
      omega

/-- In the first part of its period a light is lit, and in the rest it is dark. -/
theorem Phase.lit_iff {on off n : Nat} (phase : Phase on off n l) :
    l.lit = true ↔ n % (on + off) < on := by
  obtain ⟨periods, place⟩ := phase.place
  have bound := phase.bound
  have positive := duration_pos l.left
  cases lit : l.lit with
  | true =>
    simp only [lit, if_true] at place bound
    have split : n = (on + off) * periods + (on - duration l.left) := by omega
    rw [split, Nat.mul_add_mod, Nat.mod_eq_of_lt (by omega)]
    simp only [true_iff]
    omega
  | false =>
    simp only [lit, Bool.false_eq_true, if_false] at place bound
    have split : n = (on + off) * periods + (on + off - duration l.left) := by omega
    rw [split, Nat.mul_add_mod, Nat.mod_eq_of_lt (by omega)]
    simp only [Bool.false_eq_true, false_iff]
    omega

/-- After some ticks a fresh light is where its period says. -/
theorem Phase.ticks (blink : Blink) (n : Nat) :
    Phase (duration blink.onLength) (duration blink.offLength) n (Light.tick^[n] (fresh blink)) := by
  induction n with
  | zero => exact ⟨rfl, rfl, ⟨0, by simp [fresh]⟩, by simp [fresh]⟩
  | succ n ih =>
    rw [Function.iterate_succ_apply']
    exact ih.tick

end Light

/-- Some ticks of all the lights are some ticks of each. -/
theorem Lights.serve_ticks (a : Lights) (n : Nat) (requests : List Request) :
    ∃ b : Lights, b.lights = a.lights.map Light.tick^[n] ∧
      a.serve (List.replicate n .tasklet ++ requests) =
        (List.replicate n (0, none) ++ (b.serve requests).1, (b.serve requests).2) := by
  induction n generalizing a with
  | zero => exact ⟨a, by simp, rfl⟩
  | succ n ih =>
    obtain ⟨b, lights, served⟩ := ih a.tick
    refine ⟨b, ?_, ?_⟩
    · rw [lights, Lights.tick, List.map_map]
      rfl
    · rw [List.replicate_succ, List.cons_append, Lights.serve]
      simp only [Lights.request, served]
      rfl

/-- Every entry that is taken is shown on the screen as its status says. -/
def Shown (f : Fish) : Prop :=
  ∀ p, (f.blinkArray p).location ≠ 0 →
    f.screen (cellOffset (f.blinkArray p).location) = (f.blinkArray p).light.face

/-- A light is put up at a cell that has none, and not at the first one. -/
def Request.AtFreeCell (f : Fish) : Request → Prop
  | .add arg => arg.location ≠ 0 ∧ ∀ p, (f.blinkArray p).location ≠ arg.location
  | _ => True

instance (f : Fish) (r : Request) : Decidable (r.AtFreeCell f) :=
  match r with
  | .add arg => inferInstanceAs (Decidable (arg.location ≠ 0 ∧ ∀ p, (f.blinkArray p).location ≠ _))
  | .remove _ | .find _ | .sync _ | .tasklet => inferInstanceAs (Decidable True)

/-- The step of a program that puts up its lights at cells of their own. -/
def apartStep (fuel : Nat) (f : Fish) (r : Request) : Option Fish :=
  if r.AtFreeCell f then (f.request fuel r).map Prod.snd else none

/-- Times are not taken from a light that is lit, unless the other one shows the same lit and dark. -/
def Request.FromDark (f : Fish) : Request → Prop
  | .sync arg => ∀ p q, (f.blinkArray p).location ≠ 0 → (f.blinkArray q).location ≠ 0 →
      (f.blinkArray p).location = (arg >>> 16).setWidth 16 →
      (f.blinkArray q).location = (arg &&& 0xFFFF).setWidth 16 →
      (f.blinkArray p).status = 0 ∨ (f.blinkArray q).onChar = (f.blinkArray q).offChar
  | _ => True

namespace Lights

/-- Every light is shown as it is. -/
def Shown (a : Lights) : Prop :=
  ∀ l ∈ a.lights, a.screen (cellOffset l.location) = l.face

/-- No two lights are at one cell. -/
def Apart (a : Lights) : Prop :=
  (a.lights.map Light.location).Nodup

variable {a : Lights}

/-- Different locations are different cells. -/
theorem cellOffset_inj {left right : BitVec 16} (same : cellOffset left = cellOffset right) :
    left = right := by
  unfold cellOffset at same
  exact BitVec.eq_of_toNat_eq (by omega)

/-- A character in one cell is not seen in another. -/
theorem poke_other {location other : BitVec 16} (differ : other ≠ location) (c : Byte) :
    (a.poke location c).screen (cellOffset other) = a.screen (cellOffset other) :=
  Function.update_of_ne (fun same => differ (cellOffset_inj same)) _ _

/-- The redrawing of lights elsewhere leaves a part of the screen alone. -/
theorem foldl_redraw_away {lights : List Light} {screen : Nat → Byte} {offset : Nat}
    (away : ∀ l ∈ lights, cellOffset l.location ≠ offset) :
    lights.foldl redraw screen offset = screen offset := by
  induction lights generalizing screen with
  | nil => rfl
  | cons l lights ih =>
    rw [List.foldl_cons, ih fun other member => away other (List.mem_cons_of_mem l member)]
    have differ := away l List.mem_cons_self
    unfold redraw
    split
    · exact Function.update_of_ne differ.symm _ _
    · rfl

/-- After the redrawing of lights apart from each other, each shows what it is to show. -/
theorem foldl_redraw {lights : List Light} {screen : Nat → Byte}
    (apart : (lights.map Light.location).Nodup) {l : Light} (member : l ∈ lights)
    (shown : screen (cellOffset l.location) = l.face) :
    lights.foldl redraw screen (cellOffset l.location) = l.tick.face := by
  induction lights generalizing screen with
  | nil => cases member
  | cons first lights ih =>
    rw [List.map_cons, List.nodup_cons] at apart
    rw [List.foldl_cons]
    rcases List.mem_cons.mp member with rfl | among
    · -- Its own turn is the last one that touches its cell.
      rw [foldl_redraw_away fun other within same =>
        apart.1 (List.mem_map.mpr ⟨other, within, cellOffset_inj same⟩)]
      unfold redraw
      by_cases due : l.Due
      · rw [if_pos due, Function.update_self]
      · rw [if_neg due, shown, Light.tick, if_neg due]
        rfl
    · refine ih apart.2 among ?_
      have differ : l.location ≠ first.location := fun same =>
        apart.1 (List.mem_map.mpr ⟨l, among, same⟩)
      unfold redraw
      split
      · rw [Function.update_of_ne fun same => differ (cellOffset_inj same)]
        exact shown
      · exact shown

/-- The two lights of a request to take times, where the source is dark or the target does not blink. -/
def FromDark (a : Lights) (source target : BitVec 16) : Prop :=
  ∀ first second, a.at? source = some first → a.at? target = some second →
    first.lit = false ∨ second.onChar = second.offChar

/-- A light that was put up at a free cell is shown, and the others still are. -/
theorem add_shown (shown : a.Shown) {arg : Blink}
    (free : ∀ l ∈ a.lights, l.location ≠ arg.location) : (a.add arg).2.Shown := by
  unfold add
  split
  · exact shown
  · intro l member
    rcases List.mem_cons.mp member with rfl | among
    · exact Function.update_self _ _ _
    · rw [poke_other (free l among)]
      exact shown l among

/-- When a light is taken down, the others are still shown. -/
theorem remove_shown (shown : a.Shown) (location : BitVec 16) : (a.remove location).2.Shown := by
  unfold remove
  split
  · exact shown
  · exact fun l member => shown l (List.mem_of_mem_eraseP member)

/-- After a tick every light is shown as it is then. -/
theorem tick_shown (apart : a.Apart) (shown : a.Shown) : a.tick.Shown := by
  intro l member
  obtain ⟨old, among, rfl⟩ := List.mem_map.mp member
  rw [Light.tick_location]
  exact foldl_redraw apart among (shown old among)

/-- A search changes nothing. -/
theorem request_find (a : Lights) (arg : Blink) : (a.request (.find arg)).2 = a := by
  unfold request
  simp only
  cases a.at? arg.location <;> rfl

/-- No request but that for a light at a taken cell puts two lights at one cell. -/
theorem request_apart (apart : a.Apart) {r : Request}
    (free : ∀ arg, r = .add arg → ∀ l ∈ a.lights, l.location ≠ arg.location) :
    (a.request r).2.Apart := by
  cases r with
  | add arg =>
    simp only [request, add]
    split
    · exact apart
    · refine List.nodup_cons.mpr ⟨fun member => ?_, apart⟩
      obtain ⟨l, among, same⟩ := List.mem_map.mp member
      exact free arg rfl l among same
  | remove arg =>
    simp only [request, remove]
    split
    · exact apart
    · -- What is left of the list is a part of it.
      exact apart.sublist ((List.eraseP_sublist).map Light.location)
  | find arg => rwa [request_find]
  | sync arg =>
    simp only [request, sync]
    split
    · unfold Apart poke
      simp only
      rw [List.lookmap_map_eq]
      · exact apart
      · intro l changed same
        split at same
        · cases same
          rfl
        · cases same
    · exact apart
  | tasklet =>
    unfold Apart request tick
    rw [List.map_map, show Light.location ∘ Light.tick = Light.location from
      funext fun l => l.tick_location]
    exact apart

/-- A light that took its times from another one is shown exactly when that was dark, or it does not blink. -/
theorem sync_shown_iff (apart : a.Apart) (shown : a.Shown) (source target : BitVec 16) :
    (a.sync source target).2.Shown ↔ a.FromDark source target := by
  unfold sync FromDark
  cases a.at? source with
  | none => exact ⟨fun _ _ _ none => absurd none (by simp), fun _ => shown⟩
  | some first =>
    cases found : a.at? target with
    | none => exact ⟨fun _ _ _ _ none => absurd none (by simp), fun _ => shown⟩
    | some second =>
      obtain ⟨here, front, back, lights, before⟩ := List.find?_eq_some_iff_append.mp found
      have place : second.location = target := by simpa using here
      have earlier : ∀ l ∈ front, decide (l.location = target) = false :=
        fun l member => by simpa using before l member
      have changed := StandsFor.lookmap_of_find? (fun l : Light => decide (l.location = target))
        (fun l => l.sync first) back here earlier
      simp only [decide_eq_true_eq, ← lights] at changed
      unfold Apart at apart
      rw [lights, List.map_append, List.map_cons, List.nodup_middle, List.nodup_cons,
        ← List.map_append] at apart
      -- The cell shows the dark character now.
      have cell : (poke { a with lights := a.lights.lookmap fun l =>
          if l.location = target then some (l.sync first) else none } target
            second.offChar).screen (cellOffset (second.sync first).location) = second.offChar := by
        rw [← place]
        exact Function.update_self _ _ _
      constructor
      · intro all first' second' same same'
        cases same
        cases same'
        have mine := all (second.sync first) (by simp [poke, changed])
        rw [cell] at mine
        cases lit : first.lit with
        | false => exact .inl rfl
        | true => exact .inr (by simpa [Light.face, Light.sync, lit] using mine.symm)
      · intro dark l member
        have among : l ∈ front ++ second.sync first :: back := by simpa [poke, changed] using member
        by_cases same : l = second.sync first
        · subst same
          refine cell.trans ?_
          rcases dark first second rfl rfl with off | equal
          · simp [Light.face, Light.sync, off]
          · simp [Light.face, Light.sync, equal]
        · have other : l ∈ front ++ back := by
            simp only [List.mem_append, List.mem_cons, same, false_or] at among ⊢
            exact among
          have differ : l.location ≠ target := fun here =>
            apart.1 (List.mem_map.mpr ⟨l, other, here.trans place.symm⟩)
          rw [poke_other differ]
          refine shown l ?_
          rw [lights]
          simp only [List.mem_append, List.mem_cons] at other ⊢
          tauto

end Lights

namespace StandsFor

variable {f : Fish} {path : List BlinkSlot} {a : Lights}

/-- A property of the entries that are taken is one of the lights. -/
theorem forall_taken (represents : StandsFor f path a) (property : Light → Prop) :
    (∀ p, (f.blinkArray p).location ≠ 0 → property (f.blinkArray p).light) ↔
      ∀ l ∈ a.lights, property l := by
  rw [← represents.lights, List.forall_mem_map]
  exact forall_congr' fun p => imp_congr_left (represents.used p).symm

/-- The program shows its entries exactly when the lights are shown. -/
theorem shown_iff (represents : StandsFor f path a) : Shown f ↔ a.Shown := by
  unfold Shown
  rw [represents.screen]
  exact represents.forall_taken fun l => a.screen (cellOffset l.location) = l.face

/-- Where no two lights are at one cell, a location has one light at most. -/
theorem at?_eq (represents : StandsFor f path a) (apart : a.Apart) {p : BlinkSlot}
    (taken : (f.blinkArray p).location ≠ 0) :
    a.at? (f.blinkArray p).location = some (f.blinkArray p).light := by
  have among : (f.blinkArray p).light ∈ a.lights := by
    rw [← represents.lights]
    exact List.mem_map.mpr ⟨p, (represents.used p).mpr taken, rfl⟩
  cases found : a.at? (f.blinkArray p).location with
  | none =>
    have absent := List.find?_eq_none.mp found _ among
    exact absurd (decide_eq_true rfl) absent
  | some l =>
    -- Whatever is found is at the same location, so it is the same light.
    have place : l.location = (f.blinkArray p).light.location := by
      simpa using List.find?_some found
    have member := List.mem_of_find?_eq_some found
    exact congrArg some (List.inj_on_of_nodup_map apart member among place)

/-- A light that is found stands for an entry that is taken. -/
theorem entry_of_at? (represents : StandsFor f path a) {location : BitVec 16} {l : Light}
    (found : a.at? location = some l) :
    ∃ p, (f.blinkArray p).location ≠ 0 ∧ (f.blinkArray p).location = location ∧
      (f.blinkArray p).light = l := by
  have place : l.location = location := by simpa using List.find?_some found
  have member := List.mem_of_find?_eq_some found
  rw [← represents.lights] at member
  obtain ⟨p, among, rfl⟩ := List.mem_map.mp member
  exact ⟨p, (represents.used p).mp among, place, rfl⟩

/-- The entries of a request to take times are the lights of it. -/
theorem fromDark_iff (represents : StandsFor f path a) (apart : a.Apart) (arg : Word) :
    Request.FromDark f (.sync arg) ↔
      a.FromDark ((arg >>> 16).setWidth 16) ((arg &&& 0xFFFF).setWidth 16) := by
  constructor
  · intro dark first second source target
    obtain ⟨p, takenP, placeP, rfl⟩ := represents.entry_of_at? source
    obtain ⟨q, takenQ, placeQ, rfl⟩ := represents.entry_of_at? target
    have either := dark p q takenP takenQ placeP placeQ
    simpa [Blink.light] using either
  · intro dark p q takenP takenQ source target
    have first := represents.at?_eq apart takenP
    have second := represents.at?_eq apart takenQ
    rw [source] at first
    rw [target] at second
    have either := dark _ _ first second
    simpa [Blink.light] using either

end StandsFor

/-- The program's entries stand for lights at cells of their own. -/
def Displaying (f : Fish) : Prop :=
  ∃ path a, StandsFor f path a ∧ a.Apart

/-- A step of the program is a step of the lights, with the light put up at a free cell. -/
theorem apartStep_represents {fuel : Nat} (enough : screenCells < fuel) {f next : Fish}
    {path : List BlinkSlot} {a : Lights} {r : Request} (represents : StandsFor f path a)
    (taken : apartStep fuel f r = some next) :
    (∀ arg, r = .add arg → ∀ l ∈ a.lights, l.location ≠ arg.location) ∧
      ∃ path', StandsFor next path' (a.request r).2 := by
  unfold apartStep at taken
  split at taken
  next free =>
    have visible : ∀ arg, r = .add arg → arg.location ≠ 0 := fun arg is => by
      subst is
      exact free.1
    obtain ⟨answer, f', path', done, -, next⟩ := represents.request enough r visible
    rw [done] at taken
    cases taken
    refine ⟨fun arg is => ?_, path', next⟩
    subst is
    exact (represents.forall_taken fun l => l.location ≠ arg.location).mp fun p _ => free.2 p
  next => cases taken

/-- A step of such a program keeps every light shown exactly when it takes no times from a lit one. -/
theorem shown_step_iff {fuel : Nat} (enough : screenCells < fuel) {f next : Fish} {r : Request}
    (displaying : Displaying f) (shown : Shown f) (taken : apartStep fuel f r = some next) :
    Shown next ↔ r.FromDark f := by
  obtain ⟨path, a, represents, apart⟩ := displaying
  obtain ⟨free, path', after⟩ := apartStep_represents enough represents taken
  have now := represents.shown_iff.mp shown
  rw [after.shown_iff]
  cases r with
  | add arg => exact iff_of_true (Lights.add_shown now (free arg rfl)) trivial
  | remove arg => exact iff_of_true (Lights.remove_shown now _) trivial
  | find arg =>
    rw [Lights.request_find]
    exact iff_of_true now trivial
  | sync arg =>
    rw [represents.fromDark_iff apart]
    exact Lights.sync_shown_iff apart now _ _
  | tasklet => exact iff_of_true (Lights.tick_shown apart now) trivial

/-- Every step of such a program keeps its lights at cells of their own. -/
theorem displaying_step {fuel : Nat} (enough : screenCells < fuel) {f next : Fish} {r : Request}
    (displaying : Displaying f) (taken : apartStep fuel f r = some next) : Displaying next := by
  obtain ⟨path, a, represents, apart⟩ := displaying
  obtain ⟨free, path', after⟩ := apartStep_represents enough represents taken
  exact ⟨path', _, after, Lights.request_apart apart free⟩

/-- A light is put up in a step, where its cell is free. -/
theorem apartStep_add {fuel : Nat} {f : Fish} {arg : Blink} (free : Request.AtFreeCell f (.add arg)) :
    apartStep fuel f (.add arg) = some (mp1IoctlAdd f arg).2 := by
  rw [apartStep, if_pos free]
  rfl

/-- A tick is a step. -/
theorem apartStep_tasklet {fuel : Nat} {f next : Fish} (ticked : mp1RtcTasklet f fuel = some next) :
    apartStep fuel f .tasklet = some next := by
  have free : Request.AtFreeCell f .tasklet := trivial
  rw [apartStep, if_pos free, Fish.request, ticked]
  rfl

end SmallOs
