import Mathlib.Data.Fintype.Card
import SmallOs.Abstract.Lights
import SmallOs.Foundation.LinkedList

/-! The linked list of `blink.S` is a list of lights, as long as no light is put up at the first cell. -/

namespace SmallOs

open Foundation
open Foundation.I386 (Word)

namespace Blink

/-- The light that an entry of the list stands for. -/
def light (b : Blink) : Light :=
  ⟨b.location, b.onChar, b.offChar, b.onLength, b.offLength, b.countdown, b.status ≠ 0⟩

/-- The status of an entry is one of the two that the routines store. -/
def Settled (b : Blink) : Prop :=
  b.status = 0 ∨ b.status = 1

@[simp] theorem light_location (b : Blink) : b.light.location = b.location := rfl

end Blink

/-- The links of the pool. -/
def Fish.link (f : Fish) (p : BlinkSlot) : Option BlinkSlot :=
  (f.blinkArray p).next

/-- The program's list stands for some lights. -/
structure StandsFor (f : Fish) (path : List BlinkSlot) (a : Lights) : Prop where
  linked : Linked f.link f.mp1ListHead path
  /-- Exactly the entries of the list are taken. -/
  used : ∀ p, p ∈ path ↔ (f.blinkArray p).location ≠ 0
  settled : ∀ p ∈ path, (f.blinkArray p).Settled
  lights : path.map (fun p => (f.blinkArray p).light) = a.lights
  screen : f.screen = a.screen

/-- The search finds the first entry of the list that is at the location. -/
theorem findLoop_eq {f : Fish} {ax : BitVec 16} {head : Option BlinkSlot} {path : List BlinkSlot} {fuel : Nat}
    (linked : Linked f.link head path) (enough : path.length < fuel) :
    findLoop f ax fuel head = some (path.find? fun p => (f.blinkArray p).location = ax) := by
  -- The induction follows the list, and the fuel is longer than it.
  induction path generalizing head fuel with
  | nil =>
    obtain ⟨fuel, rfl⟩ : ∃ less, fuel = less + 1 := ⟨fuel - 1, by omega⟩
    rw [linked.head_of_nil]
    rfl
  | cons p path ih =>
    obtain ⟨fuel, rfl⟩ : ∃ less, fuel = less + 1 :=
      ⟨fuel - 1, by simp only [List.length_cons] at enough; omega⟩
    obtain ⟨rfl, rest⟩ := linked.uncons
    simp only [findLoop, List.find?_cons]
    by_cases here : (f.blinkArray p).location = ax
    · simp only [here, if_true, decide_true]
    · simp only [here, if_false, decide_false]
      exact ih rest (by simp only [List.length_cons] at enough; omega)

/-- The place that is left when so many entries were passed from a place on. -/
def lastPlace (place : LinkPlace) (front : List BlinkSlot) : LinkPlace :=
  front.foldl (fun _ p => .next p) place

/-- The search for the place that points at an entry of the list finds it. -/
theorem removeFindPrev_eq {f : Fish} {eax : BlinkSlot} {place : LinkPlace} {front back : List BlinkSlot}
    {fuel : Nat} (linked : Linked f.link (f.pointer place) (front ++ eax :: back))
    (enough : front.length < fuel) :
    removeFindPrev f eax fuel place = some (lastPlace place front) := by
  have distinct := linked.nodup
  induction front generalizing place fuel with
  | nil =>
    obtain ⟨fuel, rfl⟩ : ∃ less, fuel = less + 1 := ⟨fuel - 1, by omega⟩
    simp only [removeFindPrev, linked.uncons.1, if_true]
    rfl
  | cons p front ih =>
    obtain ⟨fuel, rfl⟩ : ∃ less, fuel = less + 1 :=
      ⟨fuel - 1, by simp only [List.length_cons] at enough; omega⟩
    obtain ⟨here, rest⟩ := linked.uncons
    -- An entry is not passed twice, so this one is not the one searched for.
    have differ : p ≠ eax := by
      rintro rfl
      simp at distinct
    simp only [removeFindPrev, here, differ, if_false]
    exact ih rest (by simp only [List.length_cons] at enough; omega)
      (List.nodup_cons.mp distinct).2

namespace StandsFor

variable {f : Fish} {path : List BlinkSlot} {a : Lights} {fuel : Nat}

/-- A list has no more entries than the pool. -/
theorem length_le (represents : StandsFor f path a) : path.length ≤ screenCells := by
  have bound := represents.linked.nodup.length_le_card
  rwa [Fintype.card_fin] at bound

/-- There are as many lights as entries. -/
theorem length_eq (represents : StandsFor f path a) : a.lights.length = path.length := by
  rw [← represents.lights, List.length_map]

/-- The helper finds the entry of the light that is at the location. -/
theorem findHelper (represents : StandsFor f path a) (enough : screenCells < fuel) (arg : Word) :
    mp1FindHelper f arg fuel =
        some (path.find? fun p => (f.blinkArray p).location = arg.setWidth 16) ∧
      a.at? (arg.setWidth 16) =
        (path.find? fun p => (f.blinkArray p).location = arg.setWidth 16).map
          fun p => (f.blinkArray p).light := by
  refine ⟨findLoop_eq represents.linked (by have := represents.length_le; omega), ?_⟩
  rw [Lights.at?, ← represents.lights, List.find?_map]
  rfl

/-- The pool has a free entry exactly while there is room for a light. -/
theorem malloc_none_iff (represents : StandsFor f path a) :
    mp1Malloc f = none ↔ screenCells ≤ a.lights.length := by
  rw [represents.length_eq]
  constructor
  · -- Without a free entry the list has all of them.
    intro full
    have all : ∀ p, p ∈ path := fun p => by
      refine (represents.used p).mpr fun free => ?_
      have taken := List.find?_eq_none.mp full p (List.mem_finRange p)
      exact taken (by simpa using free)
    have count := Finset.card_le_card (show Finset.univ ⊆ path.toFinset from
      fun p _ => List.mem_toFinset.mpr (all p))
    rw [Finset.card_univ, Fintype.card_fin] at count
    exact le_trans count (List.toFinset_card_le path)
  · intro full
    refine List.find?_eq_none.mpr fun p _ free => ?_
    have away : p ∉ path := fun member => (represents.used p).mp member (by simpa using free)
    -- The free entry and the list together would be more than the pool.
    have more := (List.nodup_cons.mpr ⟨away, represents.linked.nodup⟩).length_le_card
    rw [Fintype.card_fin, List.length_cons] at more
    omega

/-- The lights do not depend on an entry that is not in the list. -/
theorem map_update_of_not_mem (array : BlinkSlot → Blink) {p : BlinkSlot} (away : p ∉ path)
    (blink : Blink) : path.map (fun q => (Function.update array p blink q).light) =
      path.map fun q => (array q).light :=
  List.map_congr_left fun q member => by
    rw [Function.update_of_ne (ne_of_mem_of_not_mem member away)]

/-- The links after one entry was changed. -/
theorem link_setBlink (f : Fish) (p : BlinkSlot) (blink : Blink) :
    (f.setBlink p blink).link = Function.update f.link p blink.next := by
  funext q
  by_cases same : q = p
  · subst same
    simp [Fish.link, Fish.setBlink]
  · simp [Fish.link, Fish.setBlink, same]

/-- A new light is put in front of the others. -/
theorem add (represents : StandsFor f path a) {arg : Blink} (visible : arg.location ≠ 0) :
    (mp1IoctlAdd f arg).1 = (a.add arg).1 ∧
      ∃ path', StandsFor (mp1IoctlAdd f arg).2 path' (a.add arg).2 := by
  unfold mp1IoctlAdd Lights.add
  by_cases off : screenCells ≤ arg.location.toNat
  · simp only [off, if_true, true_or]
    exact ⟨trivial, path, represents⟩
  · simp only [off, if_false, false_or]
    cases room : mp1Malloc f with
    | none =>
      simp only [represents.malloc_none_iff.mp room, if_true]
      exact ⟨trivial, path, represents⟩
    | some p =>
      have some' : ¬ screenCells ≤ a.lights.length := by
        rw [← represents.malloc_none_iff, room]
        simp
      simp only [some', if_false]
      -- The entry that was free is in the list now.
      have free : (f.blinkArray p).location = 0 := by
        simpa using List.find?_some room
      have away : p ∉ path := fun member => (represents.used p).mp member free
      refine ⟨trivial, p :: path, ?_, ?_, ?_, ?_, ?_⟩
      · have pushed := represents.linked.push away
        rw [← link_setBlink f p
          ⟨arg.location, arg.onChar, arg.offChar, arg.onLength, arg.offLength, arg.onLength, 1,
            f.mp1ListHead⟩] at pushed
        exact pushed
      · intro q
        by_cases same : q = p
        · subst same
          simpa [mp1Poke, Fish.setBlink] using visible
        · simpa [mp1Poke, Fish.setBlink, same] using represents.used q
      · intro q member
        by_cases same : q = p
        · subst same
          exact .inr (by simp [mp1Poke, Fish.setBlink])
        · have old : q ∈ path := by simpa [same] using member
          simpa [Blink.Settled, mp1Poke, Fish.setBlink, same] using represents.settled q old
      · have others := map_update_of_not_mem f.blinkArray away
          ⟨arg.location, arg.onChar, arg.offChar, arg.onLength, arg.offLength, arg.onLength, 1,
            f.mp1ListHead⟩
        rw [represents.lights] at others
        simp only [mp1Poke, Fish.setBlink, Lights.poke, List.map_cons, Function.update_self, others]
        rfl
      · simp only [mp1Poke, Fish.setBlink, Lights.poke, represents.screen]

/-- A pointer that is stored changes the link of one entry at most. -/
theorem setPointer_blinkArray (f : Fish) (place : LinkPlace) (value : Option BlinkSlot) (q : BlinkSlot) :
    ∃ next, (f.setPointer place value).blinkArray q = { f.blinkArray q with next := next } := by
  cases place with
  | listHead => exact ⟨(f.blinkArray q).next, rfl⟩
  | next p =>
    by_cases same : q = p
    · subst same
      exact ⟨value, by simp [Fish.setPointer, Fish.setBlink]⟩
    · exact ⟨(f.blinkArray q).next, by simp [Fish.setPointer, Fish.setBlink, same]⟩

/-- The place in front of an entry is made to point behind it. -/
theorem linked_setPointer {front back : List BlinkSlot} {eax : BlinkSlot}
    (linked : Linked f.link f.mp1ListHead (front ++ eax :: back)) :
    Linked (f.setPointer (lastPlace .listHead front) (f.link eax)).link
      (f.setPointer (lastPlace .listHead front) (f.link eax)).mp1ListHead (front ++ back) := by
  -- The entry is the first one, or it has one in front of it.
  cases front using List.reverseRecOn with
  | nil => exact linked.uncons.2
  | append_singleton front before =>
    have last : lastPlace .listHead (front ++ [before]) = .next before := by
      simp [lastPlace]
    rw [last, List.append_assoc, List.singleton_append]
    rw [List.append_assoc, List.singleton_append] at linked
    have unlinked := linked.unlink
    unfold Fish.setPointer
    rw [link_setBlink]
    exact unlinked

/-- The latest light at a location is taken down. -/
theorem remove (represents : StandsFor f path a) (enough : screenCells < fuel) (arg : Word) :
    ∃ f' path', mp1IoctlRemove f arg fuel = some ((a.remove (arg.setWidth 16)).1, f') ∧
      StandsFor f' path' (a.remove (arg.setWidth 16)).2 := by
  obtain ⟨helped, there⟩ := represents.findHelper enough arg
  unfold mp1IoctlRemove Lights.remove
  rw [helped, there]
  cases found : path.find? fun p => (f.blinkArray p).location = arg.setWidth 16 with
  | none => exact ⟨f, path, rfl, represents⟩
  | some eax =>
    obtain ⟨here, front, back, rfl, before⟩ := List.find?_eq_some_iff_append.mp found
    have distinct := represents.linked.nodup
    have bound := represents.length_le
    simp only [List.length_append, List.length_cons] at bound
    have searched : removeFindPrev f eax fuel .listHead = some (lastPlace .listHead front) :=
      removeFindPrev_eq represents.linked (by omega)
    refine ⟨mp1Free (f.setPointer (lastPlace .listHead front) (f.blinkArray eax).next) eax,
      front ++ back, ?_, ?_⟩
    · simp only [Option.bind_eq_bind, Option.bind_some, searched]
      rfl
    · have away : eax ∉ front ++ back := by
        intro member
        rw [List.nodup_middle] at distinct
        exact (List.nodup_cons.mp distinct).1 member
      have others : ∀ q ∈ front ++ back, ∃ next,
          (mp1Free (f.setPointer (lastPlace .listHead front) (f.blinkArray eax).next)
            eax).blinkArray q = { f.blinkArray q with next := next } := fun q member => by
        obtain ⟨next, same⟩ := setPointer_blinkArray f (lastPlace .listHead front)
          (f.blinkArray eax).next q
        refine ⟨next, Eq.trans ?_ same⟩
        exact Function.update_of_ne (ne_of_mem_of_not_mem member away) _ _
      refine ⟨?_, fun q => ?_, fun q member => ?_, ?_, ?_⟩
      · unfold mp1Free
        rw [link_setBlink]
        exact (linked_setPointer represents.linked).congr fun q member =>
          Function.update_of_ne (ne_of_mem_of_not_mem member away) _ _
      · by_cases same : q = eax
        · subst same
          simp [away, mp1Free, Fish.setBlink, Blink.zero]
        · -- Every other entry is where it was, and in the list if it was.
          obtain ⟨next, kept⟩ := setPointer_blinkArray f (lastPlace .listHead front)
            (f.blinkArray eax).next q
          have member := represents.used q
          simp only [List.mem_append, List.mem_cons, same, false_or] at member ⊢
          rw [member]
          simp [mp1Free, Fish.setBlink, same, kept]
      · obtain ⟨next, same⟩ := others q member
        rw [same]
        have inside : q ∈ front ++ eax :: back := by
          simp only [List.mem_append, List.mem_cons] at member ⊢
          tauto
        exact represents.settled q inside
      · have kept : (front ++ back).map (fun q => ((mp1Free (f.setPointer
            (lastPlace .listHead front) (f.blinkArray eax).next) eax).blinkArray q).light) =
            (front ++ back).map fun q => (f.blinkArray q).light :=
          List.map_congr_left fun q member => by
            obtain ⟨next, same⟩ := others q member
            rw [same]
            rfl
        rw [kept]
        simp only [Option.map_some]
        rw [← represents.lights, List.eraseP_map, List.eraseP_append_right _ ?_,
          List.eraseP_cons_of_pos ?_]
        · exact here
        · intro q member taken
          have other : decide ((f.blinkArray q).location = arg.setWidth 16) = false := by
            simpa using before q member
          exact absurd (taken.symm.trans other) (by decide)
      · have screens : ∀ place : LinkPlace, ∀ value : Option BlinkSlot,
            (f.setPointer place value).screen = f.screen := fun place value => by
          cases place <;> rfl
        exact (screens _ _).trans represents.screen

/-- The entry that is found is handed out as it stands in the pool. -/
theorem find (represents : StandsFor f path a) (enough : screenCells < fuel) (arg : Blink) :
    mp1IoctlFind f arg fuel = some ((path.find? fun p =>
        (f.blinkArray p).location = arg.location).elim (-1, none) fun eax =>
          (0, some (f.blinkArray eax))) ∧
      a.at? arg.location = (path.find? fun p => (f.blinkArray p).location = arg.location).map
        fun p => (f.blinkArray p).light := by
  obtain ⟨helped, there⟩ := represents.findHelper enough (arg.location.setWidth 32)
  -- The location is widened for the call, and cut again by the helper.
  have same : (arg.location.setWidth 32).setWidth 16 = arg.location :=
    BitVec.setWidth_setWidth_of_le _ (by decide)
  rw [same] at helped there
  refine ⟨?_, there⟩
  unfold mp1IoctlFind
  rw [helped]
  cases path.find? fun p => (f.blinkArray p).location = arg.location with
  | none => rfl
  | some eax => rfl

/-- A change of the first element that has a property is made where the element stands. -/
theorem lookmap_of_find? {α : Type*} (p : α → Bool) (change : α → α) {front : List α} {x : α}
    (back : List α) (here : p x = true) (before : ∀ y ∈ front, p y = false) :
    (front ++ x :: back).lookmap (fun y => if p y then some (change y) else none) =
      front ++ change x :: back := by
  induction front with
  | nil => exact List.lookmap_cons_some _ _ (if_pos here)
  | cons y front ih =>
    have other := before y List.mem_cons_self
    rw [List.cons_append, List.lookmap_cons_none _ _ (by rw [other]; rfl),
      ih fun z member => before z (List.mem_cons_of_mem y member)]
    rfl

/-- The latest light at one location takes its times from the latest light at another. -/
theorem sync (represents : StandsFor f path a) (enough : screenCells < fuel) (arg : Word) :
    ∃ f', mp1IoctlSync f arg fuel =
        some ((a.sync ((arg >>> 16).setWidth 16) ((arg &&& 0xFFFF).setWidth 16)).1, f') ∧
      StandsFor f' path (a.sync ((arg >>> 16).setWidth 16) ((arg &&& 0xFFFF).setWidth 16)).2 := by
  obtain ⟨first, source⟩ := represents.findHelper enough (arg >>> 16)
  obtain ⟨second, target⟩ := represents.findHelper enough (arg &&& 0xFFFF)
  unfold mp1IoctlSync Lights.sync
  rw [first, second, source, target]
  cases origin : path.find? fun p => (f.blinkArray p).location = (arg >>> 16).setWidth 16 with
  | none => exact ⟨f, rfl, represents⟩
  | some esi =>
    have status := represents.settled esi (List.mem_of_find?_eq_some origin)
    cases found : path.find? fun p => (f.blinkArray p).location = (arg &&& 0xFFFF).setWidth 16 with
    | none => exact ⟨f, rfl, represents⟩
    | some edi =>
      obtain ⟨here, front, back, rfl, before⟩ := List.find?_eq_some_iff_append.mp found
      have location : (f.blinkArray edi).location = (arg &&& 0xFFFF).setWidth 16 := by
        simpa using here
      have inside : edi ∈ front ++ edi :: back := by simp
      -- Nothing but the times of one entry changes.
      have kept : ∀ q, ((f.setBlink edi (syncCopy (f.blinkArray esi) (f.blinkArray edi))).blinkArray
          q).location = (f.blinkArray q).location := fun q => by
        by_cases same : q = edi
        · subst same
          simp [Fish.setBlink, syncCopy]
        · simp [Fish.setBlink, same]
      refine ⟨_, rfl, ?_, fun q => ?_, fun q member => ?_, ?_, ?_⟩
      · unfold mp1Poke
        have links := link_setBlink f edi (syncCopy (f.blinkArray esi) (f.blinkArray edi))
        have same : Function.update f.link edi (syncCopy (f.blinkArray esi) (f.blinkArray edi)).next
            = f.link := Function.update_eq_self _ _
        rw [same] at links
        exact links ▸ represents.linked
      · exact (represents.used q).trans (not_congr (by rw [← kept q]; rfl))
      · by_cases same : q = edi
        · subst same
          simpa [Blink.Settled, mp1Poke, Fish.setBlink, syncCopy] using status
        · simpa [Blink.Settled, mp1Poke, Fish.setBlink, same] using represents.settled q member
      · -- The change is made at the first light of the location, which stands at the entry.
        have distinct := represents.linked.nodup
        rw [List.nodup_middle, List.nodup_cons, List.mem_append, not_or] at distinct
        have target : decide ((f.blinkArray edi).light.location =
            (arg &&& 0xFFFF).setWidth 16) = true := by simpa using here
        have earlier : ∀ l ∈ front.map fun p => (f.blinkArray p).light,
            decide (l.location = (arg &&& 0xFFFF).setWidth 16) = false := by
          intro l member
          obtain ⟨q, among, rfl⟩ := List.mem_map.mp member
          simpa using before q among
        have changed := lookmap_of_find?
          (fun l : Light => decide (l.location = (arg &&& 0xFFFF).setWidth 16))
          (fun l => l.sync (f.blinkArray esi).light) (back.map fun p => (f.blinkArray p).light)
          target earlier
        have lights := represents.lights
        rw [List.map_append, List.map_cons] at lights
        rw [lights] at changed
        simp only [decide_eq_true_eq] at changed
        simp only [Option.map_some, Lights.poke, changed]
        rw [List.map_append, List.map_cons]
        simp only [mp1Poke, Fish.setBlink, Function.update_self]
        rw [map_update_of_not_mem _ distinct.1.1, map_update_of_not_mem _ distinct.1.2]
        rfl
      · simp only [mp1Poke, Fish.setBlink, Function.update_self, Option.map_some, Lights.poke,
          represents.screen]
        simp only [syncCopy, location]
        rfl

/-- What a tick does to an entry. -/
def blinkTick (b : Blink) : Blink :=
  if 0 < (b.countdown - 1).toInt then { b with countdown := b.countdown - 1 }
  else if b.status &&& 1 = 0 then
    { b with countdown := b.onLength, status := b.status ^^^ 1 }
  else { b with countdown := b.offLength, status := b.status ^^^ 1 }

/-- The times of an entry are those of its light. -/
theorem due_light (b : Blink) : b.light.Due ↔ ¬ 0 < (b.countdown - 1).toInt :=
  Int.not_lt.symm

/-- A tick of an entry is a tick of its light. -/
theorem blinkTick_light {b : Blink} (settled : b.Settled) :
    (blinkTick b).light = b.light.tick ∧ (blinkTick b).Settled ∧ (blinkTick b).next = b.next ∧
      (blinkTick b).location = b.location := by
  by_cases more : 0 < (b.countdown - 1).toInt
  · have early : ¬ b.light.Due := by rw [due_light, not_not]; exact more
    rw [blinkTick, if_pos more, Light.tick, if_neg early]
    exact ⟨rfl, settled, rfl, rfl⟩
  · have due : b.light.Due := (due_light b).mpr more
    rw [blinkTick, if_neg more, Light.tick, if_pos due]
    -- The status is one of two, and the tick makes it the other one.
    rcases settled with off | on
    · have clear : b.status &&& 1 = 0 := by rw [off]; rfl
      rw [if_pos clear]
      exact ⟨by simp [Blink.light, off], .inr (by simp [off]), rfl, rfl⟩
    · have set : ¬ b.status &&& 1 = 0 := by rw [on]; decide
      rw [if_neg set]
      exact ⟨by simp [Blink.light, on], .inl (by simp [on]), rfl, rfl⟩

/-- One turn of the tasklet's loop. -/
theorem taskletBody_eq {f : Fish} {p : BlinkSlot} (settled : (f.blinkArray p).Settled) :
    taskletBody f p =
      { f.setBlink p (blinkTick (f.blinkArray p)) with
        screen := Lights.redraw f.screen (f.blinkArray p).light } := by
  unfold taskletBody blinkTick Lights.redraw
  by_cases more : 0 < ((f.blinkArray p).countdown - 1).toInt
  · have early : ¬ (f.blinkArray p).light.Due := by rw [due_light, not_not]; exact more
    rw [if_pos more, if_pos more, if_neg early]
    rfl
  · have due : (f.blinkArray p).light.Due := (due_light _).mpr more
    rw [if_neg more, if_neg more, if_pos due, Light.tick, if_pos due]
    -- What is shown is what the light shows after its change.
    rcases settled with off | on
    · have clear : (f.blinkArray p).status &&& 1 = 0 := by rw [off]; rfl
      rw [if_pos clear, if_pos clear]
      simp [Light.face, Blink.light, off, mp1Poke, Fish.setBlink]
    · have set : ¬ (f.blinkArray p).status &&& 1 = 0 := by rw [on]; decide
      rw [if_neg set, if_neg set]
      simp [Light.face, Blink.light, on, mp1Poke, Fish.setBlink]

/-- The loop of the tasklet ticks the entries of the list, each of them once. -/
theorem taskletLoop_eq {f : Fish} {head : Option BlinkSlot} {path : List BlinkSlot} {fuel : Nat}
    (linked : Linked f.link head path) (settled : ∀ p ∈ path, (f.blinkArray p).Settled)
    (enough : path.length < fuel) :
    taskletLoop fuel head f = some
      { f with
        blinkArray := fun q => if q ∈ path then blinkTick (f.blinkArray q) else f.blinkArray q
        screen := (path.map fun p => (f.blinkArray p).light).foldl Lights.redraw f.screen } := by
  have distinct := linked.nodup
  -- The induction follows the list, whose links the ticks leave alone.
  induction path generalizing f head fuel with
  | nil =>
    obtain ⟨fuel, rfl⟩ : ∃ less, fuel = less + 1 := ⟨fuel - 1, by omega⟩
    rw [linked.head_of_nil]
    simp [taskletLoop]
  | cons p path ih =>
    obtain ⟨fuel, rfl⟩ : ∃ less, fuel = less + 1 :=
      ⟨fuel - 1, by simp only [List.length_cons] at enough; omega⟩
    obtain ⟨rfl, rest⟩ := linked.uncons
    obtain ⟨away, distinct⟩ := List.nodup_cons.mp distinct
    have here := settled p List.mem_cons_self
    obtain ⟨-, -, next, -⟩ := blinkTick_light here
    have others : ∀ q ∈ path, (taskletBody f p).blinkArray q = f.blinkArray q := fun q member => by
      rw [taskletBody_eq here]
      exact Function.update_of_ne (ne_of_mem_of_not_mem member away) _ _
    have turned : (taskletBody f p).blinkArray p = blinkTick (f.blinkArray p) := by
      rw [taskletBody_eq here]
      exact Function.update_self _ _ _
    have linked' : Linked (taskletBody f p).link ((taskletBody f p).blinkArray p).next path := by
      rw [turned, next]
      exact rest.congr fun q member => congrArg Blink.next (others q member)
    have settled' : ∀ q ∈ path, ((taskletBody f p).blinkArray q).Settled := fun q member => by
      rw [others q member]
      exact settled q (List.mem_cons_of_mem p member)
    have enough' : path.length < fuel := by
      simp only [List.length_cons] at enough
      omega
    have tail := ih linked' settled' enough' distinct
    simp only [taskletLoop]
    rw [tail, List.map_congr_left fun q member => congrArg Blink.light (others q member)]
    -- The entry that was ticked first is none of those that are ticked after it.
    rw [taskletBody_eq here]
    simp only [Fish.setBlink, List.map_cons, List.foldl_cons]
    congr 2
    funext q
    by_cases same : q = p
    · subst same
      simp [away]
    · simp [same]

/-- A tick of the program is a tick of the lights. -/
theorem tasklet (represents : StandsFor f path a) (enough : screenCells < fuel) :
    ∃ f', mp1RtcTasklet f fuel = some f' ∧ StandsFor f' path a.tick := by
  have bound := represents.length_le
  refine ⟨_, taskletLoop_eq represents.linked represents.settled (by omega), ?_⟩
  have inside : ∀ q ∈ path, (if q ∈ path then blinkTick (f.blinkArray q) else f.blinkArray q) =
      blinkTick (f.blinkArray q) := fun q member => if_pos member
  refine ⟨?_, fun q => ?_, fun q member => ?_, ?_, ?_⟩
  · refine represents.linked.congr fun q member => ?_
    refine (congrArg Blink.next (inside q member)).trans ?_
    exact (blinkTick_light (represents.settled q member)).2.2.1
  · rw [represents.used q]
    by_cases member : q ∈ path
    · simp only [if_pos member]
      rw [(blinkTick_light (represents.settled q member)).2.2.2]
    · simp only [if_neg member]
  · simp only [if_pos member]
    exact (blinkTick_light (represents.settled q member)).2.1
  · rw [Lights.tick, ← represents.lights, List.map_map]
    exact List.map_congr_left fun q member => (congrArg Blink.light (inside q member)).trans
      (blinkTick_light (represents.settled q member)).1
  · rw [Lights.tick, ← represents.lights, ← represents.screen]

/-- Every request is answered as the lights answer it, and leaves what stands for the lights after it. -/
theorem request (represents : StandsFor f path a) (enough : screenCells < fuel) (r : Request)
    (visible : ∀ arg, r = .add arg → arg.location ≠ 0) :
    ∃ answer f' path', f.request fuel r = some (answer, f') ∧
      (answer.result, answer.found.map Blink.light) = (a.request r).1 ∧
      StandsFor f' path' (a.request r).2 := by
  cases r with
  | add arg =>
    obtain ⟨result, path', next⟩ := represents.add (visible arg rfl)
    exact ⟨_, _, path', rfl, by rw [Lights.request, ← result]; rfl, next⟩
  | remove arg =>
    obtain ⟨f', path', done, next⟩ := represents.remove enough arg
    exact ⟨_, f', path', by rw [Fish.request, done]; rfl, rfl, next⟩
  | find arg =>
    obtain ⟨done, there⟩ := represents.find enough arg
    rw [Fish.request, done, Lights.request, there]
    cases path.find? fun p => (f.blinkArray p).location = arg.location with
    | none => exact ⟨_, f, path, rfl, rfl, represents⟩
    | some eax => exact ⟨_, f, path, rfl, rfl, represents⟩
  | sync arg =>
    obtain ⟨f', done, next⟩ := represents.sync enough arg
    exact ⟨_, f', path, by rw [Fish.request, done]; rfl, rfl, next⟩
  | tasklet =>
    obtain ⟨f', done, next⟩ := represents.tasklet enough
    exact ⟨_, f', path, by rw [Fish.request, done]; rfl, rfl, next⟩

/-- So is every list of requests. -/
theorem serve (represents : StandsFor f path a) (enough : screenCells < fuel)
    {requests : List Request} (visible : ∀ arg, .add arg ∈ requests → arg.location ≠ 0) :
    ∃ answers f' path', f.serve fuel requests = some (answers, f') ∧
      (answers.map fun answer => (answer.result, answer.found.map Blink.light)) =
        (a.serve requests).1 ∧
      StandsFor f' path' (a.serve requests).2 := by
  -- One request after the other, from what stands for the lights to what does so again.
  induction requests generalizing f path a with
  | nil => exact ⟨[], f, path, rfl, rfl, represents⟩
  | cons r requests ih =>
    obtain ⟨answer, f', path', done, same, next⟩ := represents.request enough r
      fun arg is => visible arg (is ▸ List.mem_cons_self)
    obtain ⟨answers, f'', path'', served, rest, last⟩ := ih next
      fun arg member => visible arg (List.mem_cons_of_mem r member)
    refine ⟨answer :: answers, f'', path'', ?_, ?_, last⟩
    · rw [Fish.serve, done]
      simp only [Option.bind_eq_bind, Option.bind_some, served]
    · rw [List.map_cons, same, rest]
      rfl

end StandsFor

/-- The cleared pool stands for no lights. -/
theorem represents_cleared (screen : Nat → Byte) :
    StandsFor (Fish.cleared screen) [] ⟨[], screen⟩ := by
  refine ⟨.null _, fun p => ?_, fun p member => (nomatch member), rfl, rfl⟩
  simp [Fish.cleared, Blink.zero]

/--
Whatever the program asks for, the routines answer and show what a list of lights does.

A light at the first cell of the screen is excluded, as its entry would be taken for a free one.
-/
theorem blinks_refine {fuel : Nat} (enough : screenCells < fuel) (screen : Nat → Byte)
    {requests : List Request} (visible : ∀ arg, .add arg ∈ requests → arg.location ≠ 0) :
    ∃ answers f, (Fish.cleared screen).serve fuel requests = some (answers, f) ∧
      (answers.map fun answer => (answer.result, answer.found.map Blink.light)) =
        (Lights.serve ⟨[], screen⟩ requests).1 ∧
      f.screen = (Lights.serve ⟨[], screen⟩ requests).2.screen := by
  obtain ⟨answers, f, path, served, same, represents⟩ :=
    (represents_cleared screen).serve enough visible
  exact ⟨answers, f, served, same, represents.screen⟩

/-- A light that is lit for two ticks and dark for one. -/
def sampleBlink : Blink :=
  ⟨420, 0x49, 0x4D, 2, 1, 0, 0, none⟩

/-- The light is put up, shown, found dark, and taken down. -/
theorem blinks_refine_sample : ∃ answers f, (Fish.cleared fun _ => 0x20).serve 2001
      [.add sampleBlink, .tasklet, .tasklet, .find sampleBlink, .remove 420] = some (answers, f) ∧
    (answers.map fun answer => (answer.result, answer.found.map Blink.light)) =
      (Lights.serve ⟨[], fun _ => 0x20⟩
        [.add sampleBlink, .tasklet, .tasklet, .find sampleBlink, .remove 420]).1 ∧
    f.screen = (Lights.serve ⟨[], fun _ => 0x20⟩
      [.add sampleBlink, .tasklet, .tasklet, .find sampleBlink, .remove 420]).2.screen :=
  blinks_refine (by decide) _ fun arg member => by
    have same : arg = sampleBlink := by simpa using member
    rw [same]
    decide

/-- An accepted light is at the head of the list, with the old head behind it. -/
theorem add_accepted {f : Fish} {arg : Blink} (accepted : (mp1IoctlAdd f arg).1 = 0) :
    ∃ p, mp1Malloc f = some p ∧ arg.location.toNat < screenCells ∧
      (mp1IoctlAdd f arg).2.mp1ListHead = some p ∧
      (mp1IoctlAdd f arg).2.blinkArray = Function.update f.blinkArray p
        { arg with status := 1, countdown := arg.onLength, next := f.mp1ListHead } := by
  unfold mp1IoctlAdd at accepted ⊢
  -- The two failures give another result.
  by_cases off : screenCells ≤ arg.location.toNat
  · simp [off] at accepted
  · cases room : mp1Malloc f with
    | none => simp [off, room] at accepted
    | some p =>
      simp only [off, if_false]
      exact ⟨p, rfl, by omega, rfl, rfl⟩

/-- The pool hands out its first free entry again and again, as long as that stays free. -/
theorem malloc_again {f : Fish} {p : BlinkSlot} {blink : Blink} (room : mp1Malloc f = some p)
    (free : blink.location = 0) {g : Fish}
    (array : g.blinkArray = Function.update f.blinkArray p blink) : mp1Malloc g = some p := by
  refine Eq.trans ?_ room
  -- The search asks for the locations only, and none of them has changed.
  have first : (f.blinkArray p).location = 0 := by simpa using List.find?_some room
  have tests : (fun q => decide ((g.blinkArray q).location = 0)) =
      fun q => decide ((f.blinkArray q).location = 0) := by
    funext q
    rw [array]
    by_cases same : q = p
    · subst same
      simp [free, first]
    · simp [same]
  exact congrArg (fun test => (List.finRange screenCells).find? test) tests

/-- A loop that comes back to its entry does not end. -/
theorem taskletLoop_circle {f : Fish} {p : BlinkSlot} (circle : f.link p = some p) (fuel : Nat) :
    taskletLoop fuel (some p) f = none := by
  induction fuel generalizing f with
  | zero => rfl
  | succ fuel ih =>
    -- A tick leaves the links alone, whatever it does to the entry.
    have link : (taskletBody f p).link p = f.link p := by
      unfold taskletBody
      simp only
      split
      · simp [Fish.link, Fish.setBlink]
      · split <;> simp [Fish.link, Fish.setBlink, mp1Poke]
    show taskletLoop fuel ((taskletBody f p).link p) (taskletBody f p) = none
    rw [link, circle]
    exact ih (link.trans circle)

/-- A search that comes back to its entry, which is not the one it is for, does not end. -/
theorem findLoop_circle {f : Fish} {p : BlinkSlot} {ax : BitVec 16} (circle : f.link p = some p)
    (differ : (f.blinkArray p).location ≠ ax) (fuel : Nat) :
    findLoop f ax fuel (some p) = none := by
  induction fuel with
  | zero => rfl
  | succ fuel ih =>
    rw [findLoop, if_neg differ]
    exact (congrArg (findLoop f ax fuel) circle).trans ih

/--
A light at the first cell of the screen turns the list into a circle when another one follows.

Both are accepted, and from then on the tasklet does not return, nor does a search for another cell.
-/
theorem first_cell_circle {f : Fish} {first second : Blink} (origin : first.location = 0)
    (accepted : (mp1IoctlAdd f first).1 = 0) (visible : second.location.toNat < screenCells)
    (fuel : Nat) :
    (mp1IoctlAdd (mp1IoctlAdd f first).2 second).1 = 0 ∧
      mp1RtcTasklet (mp1IoctlAdd (mp1IoctlAdd f first).2 second).2 fuel = none ∧
      ∀ arg : Word, arg.setWidth 16 ≠ second.location →
        mp1FindHelper (mp1IoctlAdd (mp1IoctlAdd f first).2 second).2 arg fuel = none := by
  obtain ⟨p, room, -, head, array⟩ := add_accepted accepted
  -- The entry of the first light is handed out for the second one.
  have again := malloc_again room (by exact origin) array
  generalize (mp1IoctlAdd f first).2 = g at head again
  have accepted' : (mp1IoctlAdd g second).1 = 0 := by
    unfold mp1IoctlAdd
    rw [if_neg (by omega), again]
  obtain ⟨q, same, -, head', array'⟩ := add_accepted accepted'
  obtain rfl : p = q := Option.some.inj (again.symm.trans same)
  have circle : (mp1IoctlAdd g second).2.link p = some p := by
    unfold Fish.link
    rw [array', Function.update_self]
    exact head
  refine ⟨accepted', ?_, fun arg other => ?_⟩
  · rw [mp1RtcTasklet, head']
    exact taskletLoop_circle circle fuel
  · rw [mp1FindHelper, head']
    refine findLoop_circle circle ?_ fuel
    rw [array', Function.update_self]
    exact fun is => other is.symm

/-- Two lights are enough, in the cleared pool. -/
theorem first_cell_circle_sample :
    (mp1IoctlAdd (mp1IoctlAdd (Fish.cleared fun _ => 0) { sampleBlink with location := 0 }).2
        sampleBlink).1 = 0 ∧
      mp1RtcTasklet (mp1IoctlAdd (mp1IoctlAdd (Fish.cleared fun _ => 0)
        { sampleBlink with location := 0 }).2 sampleBlink).2 5000 = none ∧
      ∀ arg : Word, arg.setWidth 16 ≠ sampleBlink.location →
        mp1FindHelper (mp1IoctlAdd (mp1IoctlAdd (Fish.cleared fun _ => 0)
          { sampleBlink with location := 0 }).2 sampleBlink).2 arg 5000 = none :=
  first_cell_circle rfl (by decide +kernel) (by decide) 5000

end SmallOs
