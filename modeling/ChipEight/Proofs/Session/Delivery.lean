import ChipEight.Proofs.Machine.KeyWait
import ChipEight.Proofs.Session.Meet

/-! # Delivery of key events

Key events come in by two ways, posted to the session or pressed at its recorder, and wait there for
the next cycle tick, which moves them all into the keypad before its instruction (`handle_cycle`).
Nothing is lost on the way, doubled, or put out of the order of its source (`Merge`), and the keypad
that an instruction sees is what these events make of it, together with the keys that key waits took
(`input_delivered`).
-/

namespace ChipEight

/-- The third list is made of the first two, each in its order. -/
inductive Merge {α : Type} : List α → List α → List α → Prop
  | nil : Merge [] [] []
  | left {x : α} {xs ys zs : List α} (h : Merge xs ys zs) : Merge (x :: xs) ys (x :: zs)
  | right {y : α} {xs ys zs : List α} (h : Merge xs ys zs) : Merge xs (y :: ys) (y :: zs)

namespace Merge
variable {α : Type} {xs ys zs : List α}

theorem append_left (h : Merge xs ys zs) (as : List α) : Merge (as ++ xs) ys (as ++ zs) := by
  induction as with
  | nil => exact h
  | cons a as ih => exact ih.left

theorem append_right (h : Merge xs ys zs) (as : List α) : Merge xs (as ++ ys) (as ++ zs) := by
  induction as with
  | nil => exact h
  | cons a as ih => exact ih.right

theorem of_append (xs ys : List α) : Merge xs ys (xs ++ ys) := by
  have h := (nil.append_right ys).append_left xs
  rwa [List.append_nil, List.append_nil] at h

end Merge

/-- What reaches a keypad: a key event, or a key wait that takes a key. -/
inductive KeyDeed
  | event (e : KeyEvent)
  | taken (key : Fin 16)

namespace KeyDeed

def event? : KeyDeed → Option KeyEvent
  | .event e => some e
  | .taken _ => none

/-- Where the deed leaves the latch of a key, if it is about that key. A key that is taken goes
up. -/
def says? (key : Int) : KeyDeed → Option Bool
  | .event e => e.says? key
  | .taken k => if (k.val : Int) = key % 16 then some false else none

end KeyDeed

namespace Keypad

def undergo (k : Keypad) : KeyDeed → Keypad
  | .event e => k.apply e
  | .taken key => k.set key.val false

theorem isDown_undergo (k : Keypad) (d : KeyDeed) (key : Int) :
    (k.undergo d).isDown key = (d.says? key).getD (k.isDown key) := by
  cases d with
  | event e => exact k.isDown_apply e key
  | taken j =>
    have hj : (j.val : Int) % 16 = j.val := by omega
    simp only [isDown, undergo, latches_set, nibble_eq_iff, KeyDeed.says?, hj]
    split <;> rfl

end Keypad

namespace Arrival

/-- The key event that an arrival posts, its key named by four bits. -/
def posted? : Arrival → Option KeyEvent
  | .happening (.post key down) => some (KeyEvent.masked ⟨key, down⟩)
  | _ => none

/-- The key event that an arrival presses or releases, its key named by four bits. -/
def pressed? : Arrival → Option KeyEvent
  | .happening (.press key) => some (KeyEvent.masked ⟨key, true⟩)
  | .happening (.release key) => some (KeyEvent.masked ⟨key, false⟩)
  | _ => none

end Arrival

namespace Renderer

/-- There is no renderer, or a recorder. -/
def Headless : Renderer → Prop
  | .none | .recorder _ => True
  | .window _ => False

/-- The key events that wait at a recorder, as the keypad will get them. -/
def waiting : Renderer → List KeyEvent
  | .recorder r => r.events.map KeyEvent.masked
  | _ => []

/-- The key event that an arrival gives to a recorder. -/
def heard? : Renderer → Arrival → Option KeyEvent
  | .recorder _, a => a.pressed?
  | _, _ => Option.none

/-- What becomes of a renderer in a session: it stays of its kind. -/
structure Stays (r r' : Renderer) : Prop where
  headless : r'.Headless
  heard? : r'.heard? = r.heard?

variable {r : Renderer}

theorem Headless.stays (h : r.Headless) : r.Stays r := ⟨h, rfl⟩

theorem Headless.poll (h : r.Headless) :
    ∃ es r', r.poll = .ok (es, r') ∧ es.map KeyEvent.masked = r.waiting ∧ r'.waiting = [] ∧
      r.Stays r' := by
  cases r with
  | none => exact ⟨_, _, rfl, rfl, rfl, trivial, rfl⟩
  | recorder => exact ⟨_, _, rfl, rfl, rfl, trivial, rfl⟩
  | window => exact h.elim

theorem Headless.present (h : r.Headless) (f : Frame) :
    (r.present f).1.waiting = r.waiting ∧ r.Stays (r.present f).1 := by
  cases r with
  | none => exact ⟨rfl, trivial, rfl⟩
  | recorder => exact ⟨rfl, trivial, rfl⟩
  | window => exact h.elim

end Renderer

/-- A step takes the key that it latches, and does nothing else to the keypad. -/
theorem Machine.keypad_step (m : Machine) :
    m.step.1.keypad =
      (m.latch?.map fun (key, _) => KeyDeed.taken key).toList.foldl Keypad.undergo m.keypad := by
  rcases m.keyWait_cases with ⟨hword, j, hj, -⟩ | hw | hword
  · rw [latch?_of_isKeyWait hword, step_of_firstDown? hword hj, hj]; rfl
  · have hnone : m.keypad.firstDown? = none := Keypad.firstDown?_eq_none_iff.2 hw.up
    rw [latch?_of_isKeyWait hw.word, step_of_waits hw, hnone]; rfl
  · rw [latch?_of_not_isKeyWait hword, (step_of_not_isKeyWait hword).1]; rfl

namespace Session

/-- The key events that the next cycle tick moves into the keypad, in order. -/
def inbox (s : Session) : List KeyEvent := s.pending ++ s.renderer.waiting

/-- The machine with these in its keypad, as the instruction of the next cycle tick finds it. -/
def supplied (s : Session) : Machine :=
  { s.machine with keypad := s.inbox.foldl Keypad.apply s.machine.keypad }

/-- What reaches the keypad at an arrival. -/
def deeds (s : Session) : Arrival → List KeyDeed
  | .tick .cycle =>
    s.inbox.map .event ++ (s.supplied.latch?.map fun (key, _) => KeyDeed.taken key).toList
  | _ => []

/-- The key events that reach the keypad in a history. -/
def applied (s : Session) (as : List Arrival) : List KeyEvent :=
  (s.gather deeds as).filterMap KeyDeed.event?

variable {s : Session}

theorem handle_cycle (hs : s.renderer.Headless) :
    ∃ renderer cycles log, s.renderer.Stays renderer ∧ renderer.waiting = [] ∧
      s.handle .cycle =
        ({ s with renderer, pending := [], machine := s.supplied.step.1, cycles, log },
          s.supplied.step.2.map .machine) := by
  obtain ⟨es, r, hpoll, hes, hempty, hstays⟩ := hs.poll
  have hdrain : s.drain =
      ({ s with renderer := r, pending := [], machine := s.supplied }, none) := by
    simp only [drain, hpoll, hes]; rfl
  have hstep : s.handle .cycle =
      step { s with renderer := r, pending := [], machine := s.supplied } := by
    rw [handle, serveCycle, hdrain]
  rw [step_eq] at hstep
  exact ⟨r, _, _, hstays, hempty, hstep⟩

/-- From `s` to `s'` an arrival puts what it posts or presses at the end of its queue, and the
keypad stays as it is. -/
structure Queues (s : Session) (a : Arrival) (s' : Session) : Prop where
  stays : s.renderer.Stays s'.renderer
  pending : s'.pending = s.pending ++ a.posted?.toList
  waiting : s'.renderer.waiting = s.renderer.waiting ++ (s.renderer.heard? a).toList
  keypad : s'.machine.keypad = s.machine.keypad

theorem Queues.of_keep {a : Arrival} {s' : Session} (hposted : a.posted? = none)
    (hheard : s.renderer.heard? a = none) (hstays : s.renderer.Stays s'.renderer)
    (hpending : s'.pending = s.pending) (hwaiting : s'.renderer.waiting = s.renderer.waiting)
    (hkeypad : s'.machine.keypad = s.machine.keypad) : s.Queues a s' where
  stays := hstays
  pending := by rw [hposted, hpending]; exact (List.append_nil _).symm
  waiting := by rw [hheard, hwaiting]; exact (List.append_nil _).symm
  keypad := hkeypad

theorem Queues.refl (hs : s.renderer.Headless) {a : Arrival} (hposted : a.posted? = none)
    (hheard : s.renderer.heard? a = none) : s.Queues a s :=
  .of_keep hposted hheard hs.stays rfl rfl rfl

theorem Queues.keeps {a : Arrival} {s' : Session} (h : s.Queues a s') (hposted : a.posted? = none)
    (hheard : s.renderer.heard? a = none) :
    s'.pending = s.pending ∧ s'.renderer.waiting = s.renderer.waiting := by
  rw [h.pending, h.waiting, hposted, hheard]
  exact ⟨List.append_nil _, List.append_nil _⟩

theorem heard?_of_pressed? {r : Renderer} {a : Arrival} (h : a.pressed? = none) :
    r.heard? a = none := by
  cases r with
  | recorder => exact h
  | none | window => rfl

theorem receiveHost_of_headless {r : Renderer} (hr : r.Headless) (e : Window.HostEvent) :
    ∃ error, r.receiveHost e = .error error := by
  cases r with
  | window => exact hr.elim
  | none | recorder => exact ⟨_, rfl⟩

theorem meet_happening (hs : s.renderer.Headless) (h : Happening) :
    s.Queues (.happening h) (s.meet (.happening h)).1 := by
  obtain ⟨_, renderer, _, _, _, _, _, _, _, _, _, _, _⟩ := s
  cases h with
  | stop => exact .of_keep rfl (heard?_of_pressed? rfl) hs.stays rfl rfl rfl
  | post key down =>
    have hnone := heard?_of_pressed? (r := renderer) (a := .happening (.post key down)) rfl
    exact ⟨hs.stays, rfl, by rw [hnone]; exact (List.append_nil _).symm, rfl⟩
  | host e =>
    obtain ⟨error, herror⟩ := receiveHost_of_headless hs e
    simp only [meet, receive, herror]
    exact .refl hs rfl (heard?_of_pressed? rfl)
  | quit =>
    cases renderer with
    | none => exact .refl hs rfl rfl
    | recorder => exact .of_keep rfl rfl ⟨trivial, rfl⟩ rfl rfl rfl
    | window => exact hs.elim
  | press | release =>
    cases renderer with
    | none => exact .refl hs rfl rfl
    | recorder => exact ⟨⟨trivial, rfl⟩, (List.append_nil _).symm, List.map_append, rfl⟩
    | window => exact hs.elim

theorem meet_of_ne_cycle (hs : s.renderer.Headless) {a : Arrival} (ha : a ≠ .tick .cycle) :
    s.Queues a (s.meet a).1 := by
  cases a with
  | happening h => exact meet_happening hs h
  | nothing | interrupt => exact .refl hs rfl (heard?_of_pressed? rfl)
  | tick t =>
    cases t with
    | cycle => exact absurd rfl ha
    | other kind => exact .refl hs rfl (heard?_of_pressed? rfl)
    | timer =>
      obtain ⟨hwaiting, hstays⟩ := hs.present s.machine.tick.screen.frame
      have hkeypad : s.machine.tick.keypad = s.machine.keypad := by rw [Machine.tick_eq]
      exact .of_keep rfl (heard?_of_pressed? rfl) hstays rfl hwaiting hkeypad

theorem meet_stays (hs : s.renderer.Headless) (a : Arrival) :
    s.renderer.Stays (s.meet a).1.renderer := by
  by_cases ha : a = .tick .cycle
  · subst ha
    obtain ⟨_, _, _, hstays, -, heq⟩ := handle_cycle hs
    rw [meet, heq]; exact hstays
  · exact (meet_of_ne_cycle hs ha).stays

theorem headless_meetAll (hs : s.renderer.Headless) (as : List Arrival) :
    (s.meetAll as).renderer.Headless :=
  List.foldlRecOn (motive := fun s' : Session => s'.renderer.Headless) as _ hs
    fun _ hs' a _ => (meet_stays hs' a).headless

theorem deeds_of_ne_cycle {a : Arrival} (ha : a ≠ .tick .cycle) : s.deeds a = [] := by
  cases a with
  | tick t =>
    cases t with
    | cycle => exact absurd rfl ha
    | timer | other => rfl
  | happening | nothing | interrupt => rfl

theorem event?_deeds (s : Session) :
    (s.deeds (.tick .cycle)).filterMap KeyDeed.event? = s.inbox := by
  have hevents : (s.inbox.map KeyDeed.event).filterMap KeyDeed.event? = s.inbox := by
    rw [List.filterMap_map]; exact List.filterMap_some
  rw [deeds, List.filterMap_append, hevents]
  cases s.supplied.latch? <;> exact List.append_nil _

theorem undergo_inbox (s : Session) (k : Keypad) :
    (s.inbox.map KeyDeed.event).foldl Keypad.undergo k = s.inbox.foldl Keypad.apply k :=
  List.foldl_map

theorem keypad_meet (hs : s.renderer.Headless) (a : Arrival) :
    (s.meet a).1.machine.keypad = (s.deeds a).foldl Keypad.undergo s.machine.keypad := by
  by_cases ha : a = .tick .cycle
  · subst ha
    obtain ⟨_, _, _, -, -, heq⟩ := handle_cycle hs
    rw [meet, heq, deeds, List.foldl_append, undergo_inbox]
    exact s.supplied.keypad_step
  · rw [deeds_of_ne_cycle ha]; exact (meet_of_ne_cycle hs ha).keypad

theorem filterMap_cons_eq {α β : Type} (f : α → Option β) (a : α) (as : List α) :
    (a :: as).filterMap f = (f a).toList ++ as.filterMap f := by
  rw [List.filterMap_cons]; cases f a <;> rfl

theorem applied_cons (a : Arrival) (as : List Arrival) :
    s.applied (a :: as) = (s.deeds a).filterMap KeyDeed.event? ++ (s.meet a).1.applied as :=
  List.filterMap_append

theorem merge_applied (hs : s.renderer.Headless) (as : List Arrival) :
    Merge (s.pending ++ as.filterMap Arrival.posted?)
      (s.renderer.waiting ++ as.filterMap s.renderer.heard?)
      (s.applied as ++ (s.meetAll as).inbox) := by
  induction as generalizing s with
  | nil =>
    rw [List.filterMap_nil, List.filterMap_nil, List.append_nil, List.append_nil]
    exact .of_append _ _
  | cons a as ih =>
    have hstays := meet_stays hs a
    have hrest := ih hstays.headless
    rw [hstays.heard?] at hrest
    rw [applied_cons, filterMap_cons_eq, filterMap_cons_eq, meetAll_cons, List.append_assoc]
    by_cases ha : a = .tick .cycle
    · subst ha
      have hnone := heard?_of_pressed? (r := s.renderer) (a := .tick .cycle) rfl
      obtain ⟨_, _, _, -, hempty, heq⟩ := handle_cycle hs
      have hwaiting : (s.meet (.tick .cycle)).1.renderer.waiting = [] := by
        rw [meet, heq]; exact hempty
      have hpending : (s.meet (.tick .cycle)).1.pending = [] := by rw [meet, heq]
      rw [hwaiting, hpending] at hrest
      rw [event?_deeds, hnone, inbox, List.append_assoc]
      exact (hrest.append_right _).append_left _
    · have hq := meet_of_ne_cycle hs ha
      rw [hq.pending, hq.waiting] at hrest
      rw [deeds_of_ne_cycle ha, ← List.append_assoc, ← List.append_assoc]
      exact hrest

/-- In any history the key events that reached the keypad, with those that still wait behind them,
are a merge of what was posted and what was pressed. The keypad that an instruction sees is made of
them and of the keys taken in between: a latch is where the last of these for its key leaves it,
those that waited for this tick coming last, and as it was if there is none. A cycle tick, whether
or not its instruction fails, empties both queues, and other ticks leave queues and keypad alone. -/
theorem input_delivered (hs : s.renderer.Headless) (as : List Arrival) :
    Merge (s.pending ++ as.filterMap Arrival.posted?)
      (s.renderer.waiting ++ as.filterMap s.renderer.heard?)
      (s.applied as ++ (s.meetAll as).inbox) ∧
    (s.meetAll as).supplied.keypad =
      (s.gather deeds as ++ (s.meetAll as).inbox.map KeyDeed.event).foldl Keypad.undergo
        s.machine.keypad ∧
    (∀ key : Int, (s.meetAll as).supplied.keypad.isDown key =
      ((s.gather deeds as ++ (s.meetAll as).inbox.map KeyDeed.event).reverse.findSome?
        (·.says? key)).getD (s.machine.keypad.isDown key)) ∧
    (∀ key : Int, (s.meetAll as).supplied.keypad.isDown key =
      ((s.meetAll as).inbox.reverse.findSome? (·.says? key)).getD
        ((s.meetAll as).machine.keypad.isDown key)) ∧
    (((s.meetAll as).handle .cycle).1.machine = (s.meetAll as).supplied.step.1 ∧
      ((s.meetAll as).handle .cycle).2 = (s.meetAll as).supplied.step.2.map .machine ∧
      ((s.meetAll as).handle .cycle).1.pending = [] ∧
      ((s.meetAll as).handle .cycle).1.renderer.waiting = []) ∧
    ∀ t : Tick, t ≠ .cycle →
      ((s.meetAll as).handle t).1.machine.keypad = (s.meetAll as).machine.keypad ∧
      ((s.meetAll as).handle t).1.pending = (s.meetAll as).pending ∧
      ((s.meetAll as).handle t).1.renderer.waiting = (s.meetAll as).renderer.waiting := by
  have hs' := headless_meetAll hs as
  have hkeypad : (s.meetAll as).supplied.keypad =
      (s.gather deeds as ++ (s.meetAll as).inbox.map KeyDeed.event).foldl Keypad.undergo
        s.machine.keypad := by
    have hmachine : (s.meetAll as).machine.keypad =
        (s.gather deeds as).foldl Keypad.undergo s.machine.keypad :=
      s.foldl_gather (fun s' => s'.machine.keypad) (P := fun s' => s'.renderer.Headless)
        (fun _ a h => (meet_stays h a).headless) (fun _ a h => keypad_meet h a) hs as
    rw [List.foldl_append, undergo_inbox, ← hmachine]; rfl
  refine ⟨merge_applied hs as, hkeypad, fun key => ?_, fun key => Keypad.isDown_applied _ _ key, ?_,
    fun t ht => ?_⟩
  · rw [hkeypad]
    exact Keypad.isDown_foldl (fun k d => k.isDown_undergo d key) _ _
  · obtain ⟨_, _, _, -, hempty, heq⟩ := handle_cycle hs'
    rw [heq]
    exact ⟨rfl, rfl, rfl, hempty⟩
  · have hq := meet_of_ne_cycle hs' (a := .tick t) fun h => ht (Arrival.tick.inj h)
    exact ⟨hq.keypad, hq.keeps rfl (heard?_of_pressed? rfl)⟩

/-- A key wait that takes key 3 and a return that faults, with keys by both ways around them. -/
theorem input_delivered_of_fault :
    let s := ofRates ((Machine.fresh .silent .zeros).act (.load [0xF3, 0x0A, 0x00, 0xEE]))
      (.recorder (.new none)) 500 60 .info
    let as : List Arrival := [.happening (.press 4), .happening (.post 0x13 true), .tick .cycle,
      .happening (.release (-12)), .tick .timer, .tick (.other "x"), .happening (.post 4 true),
      .tick .cycle, .happening (.press 9)]
    s.renderer.Headless ∧
      Merge [⟨3, true⟩, ⟨4, true⟩] [⟨4, true⟩, ⟨4, false⟩, ⟨9, true⟩]
        (s.applied as ++ (s.meetAll as).inbox) ∧
      s.applied as = [⟨3, true⟩, ⟨4, true⟩, ⟨4, true⟩, ⟨4, false⟩] ∧
      [3, 4, 9, -7, 10].map (s.meetAll as).supplied.keypad.isDown =
        [false, false, true, true, false] := by
  intro s as
  have hs : s.renderer.Headless := trivial
  obtain ⟨hmerge, -, hlatch, -, -, -⟩ := input_delivered hs as
  have hposted : s.pending ++ as.filterMap Arrival.posted? = [⟨3, true⟩, ⟨4, true⟩] := by decide
  have hpressed : s.renderer.waiting ++ as.filterMap s.renderer.heard? =
      [⟨4, true⟩, ⟨4, false⟩, ⟨9, true⟩] := by decide
  rw [hposted, hpressed] at hmerge
  refine ⟨hs, hmerge, by decide +kernel, ?_⟩
  rw [List.map_congr_left fun key _ => hlatch key]
  decide +kernel

end Session

end ChipEight
