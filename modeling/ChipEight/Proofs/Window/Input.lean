import ChipEight.Desktop
import ChipEight.Proofs.Window.Life

/-! # Input at a window

Host events wait at a window until they are polled. A list of calls alone says which of them each
poll gets, and which layout it reads them by (`batches`): those that have arrived since the poll
before, each once and in their order. What the poll returns is this batch in terms of the keypad
(`Translates`), without the events that ask to quit, which the window keeps in mind from then on
(`input_translated`). What the keys are called, and which of them is Escape, is up to the toolkit.
-/

namespace ChipEight.Window

/-- The key events that host events stand for: those of the keys whose names the layout has, apart
from Escape. -/
inductive Translates (kit : Toolkit) (layout : KeyLayout) : List HostEvent → List KeyEvent → Prop
  | nil : Translates kit layout [] []
  | named {code : Int} {down : Bool} {key : Int} {es : List HostEvent} {ks : List KeyEvent}
    (hcode : code ≠ kit.escape) (hkey : layout.lookup (kit.keyName code) = some key)
    (h : Translates kit layout es ks) :
    Translates kit layout (.key code down :: es) (⟨key, down⟩ :: ks)
  | unnamed {code : Int} {down : Bool} {es : List HostEvent} {ks : List KeyEvent}
    (hkey : layout.lookup (kit.keyName code) = none) (h : Translates kit layout es ks) :
    Translates kit layout (.key code down :: es) ks
  | escape {down : Bool} {es : List HostEvent} {ks : List KeyEvent}
    (h : Translates kit layout es ks) : Translates kit layout (.key kit.escape down :: es) ks
  | close {es : List HostEvent} {ks : List KeyEvent} (h : Translates kit layout es ks) :
    Translates kit layout (.close :: es) ks
  | other {es : List HostEvent} {ks : List KeyEvent} (h : Translates kit layout es ks) :
    Translates kit layout (.other :: es) ks

theorem translates_filterMap (kit : Toolkit) (layout : KeyLayout) (es : List HostEvent) :
    Translates kit layout es (es.filterMap (keyEvent? kit layout)) := by
  induction es with
  | nil => exact .nil
  | cons e es ih =>
    rw [List.filterMap_cons]
    cases e with
    | close => exact ih.close
    | other => exact ih.other
    | key code down =>
      by_cases hcode : code = kit.escape
      · subst hcode
        rw [keyEvent?, if_pos rfl]
        exact ih.escape
      · rw [keyEvent?, if_neg hcode]
        cases hkey : layout.lookup (kit.keyName code) with
        | none => exact ih.unnamed hkey
        | some key => exact ih.named hcode hkey

/-- The close button, or Escape in either direction. -/
def AsksToQuit (kit : Toolkit) (e : HostEvent) : Prop :=
  e = .close ∨ ∃ down, e = .key kit.escape down

theorem asksToQuit_iff {kit : Toolkit} {e : HostEvent} :
    asksToQuit kit e = true ↔ AsksToQuit kit e := by
  cases e <;> simp [asksToQuit, AsksToQuit]

namespace Call

/-- The host event that arrives. -/
def arrival? : Call → Option HostEvent
  | .receive e => some e
  | _ => none

def layout? : Call → Option KeyLayout
  | .setLayout layout => some layout
  | _ => none

end Call

/-- For each poll the layout and the host events that it reads, from a layout and the events that
wait at first. -/
def batches (layout : KeyLayout) (waiting : List HostEvent) :
    List Call → List (KeyLayout × List HostEvent)
  | [] => []
  | .poll :: cs => (layout, waiting) :: batches layout [] cs
  | c :: cs => batches (c.layout?.getD layout) (waiting ++ c.arrival?.toList) cs

/-- What the polls return. -/
def answers (w : Window) : List Call → List (Except Error (List KeyEvent))
  | [] => []
  | .poll :: cs => w.poll.map Prod.fst :: (w.obey .poll).answers cs
  | c :: cs => (w.obey c).answers cs

/-- The host events that a call takes from the window to look at them. -/
def taken (w : Window) : Call → List HostEvent
  | .poll => if w.listening then w.events else []
  | _ => []

def polled (w : Window) : List Call → List HostEvent
  | [] => []
  | c :: cs => w.taken c ++ (w.obey c).polled cs

theorem polled_append (w : Window) (cs ds : List Call) :
    w.polled (cs ++ ds) = w.polled cs ++ (w.live cs).polled ds := by
  induction cs generalizing w with
  | nil => rfl
  | cons c cs ih =>
    rw [List.cons_append, polled, polled, ih, List.append_assoc]
    rfl

section
variable {w : Window}

theorem openOn_input (w : Window) (windows : WindowSystem) :
    (w.listening = true → (w.openOn windows).1.listening = true) ∧
      (w.openOn windows).1.events = w.events ∧ (w.openOn windows).1.layout = w.layout ∧
      (w.openOn windows).1.quitRequested = w.quitRequested := by
  have hopening := w.opening windows
  generalize w.openOn windows = out at hopening
  cases hopening with
  | refused listening hlistening => exact ⟨hlistening, rfl, rfl, rfl⟩
  | frameless | opened => exact ⟨fun _ => rfl, rfl, rfl, rfl⟩

theorem present_input (w : Window) (f : Frame) :
    (w.present f).1.listening = w.listening ∧ (w.present f).1.events = w.events ∧
      (w.present f).1.layout = w.layout ∧ (w.present f).1.quitRequested = w.quitRequested := by
  have hpresenting := w.presenting f
  generalize w.present f = out at hpresenting
  cases hpresenting <;> exact ⟨rfl, rfl, rfl, rfl⟩

/-- A poll apart, host events come in and stay. -/
theorem obey_input {c : Call} (hl : w.listening = true) (hclose : c ≠ .close) (hpoll : c ≠ .poll) :
    (w.obey c).listening = true ∧ (w.obey c).events = w.events ++ c.arrival?.toList ∧
      (w.obey c).layout = c.layout?.getD w.layout := by
  cases c with
  | openOn windows =>
    obtain ⟨hlistening, hevents, hlayout, -⟩ := w.openOn_input windows
    exact ⟨hlistening hl, hevents.trans (List.append_nil _).symm, hlayout⟩
  | close => exact absurd rfl hclose
  | present f =>
    obtain ⟨hlistening, hevents, hlayout, -⟩ := w.present_input f
    exact ⟨hlistening.trans hl, hevents.trans (List.append_nil _).symm, hlayout⟩
  | poll => exact absurd rfl hpoll
  | receive e =>
    rw [obey_receive, if_pos hl]
    exact ⟨hl, rfl, rfl⟩
  | setLayout layout => exact ⟨hl, (List.append_nil _).symm, rfl⟩

theorem of_ne_poll {c : Call} (hpoll : c ≠ .poll) (w : Window) (cs : List Call) :
    batches w.layout w.events (c :: cs) =
        batches (c.layout?.getD w.layout) (w.events ++ c.arrival?.toList) cs ∧
      w.answers (c :: cs) = (w.obey c).answers cs ∧ w.taken c = [] := by
  cases c with
  | poll => exact absurd rfl hpoll
  | openOn | close | present | receive | setLayout => exact ⟨rfl, rfl, rfl⟩

theorem quitRequested_obey (w : Window) (c : Call) :
    (w.obey c).quitRequested = (w.quitRequested || (w.taken c).any (asksToQuit w.kit)) := by
  have hnone : w.quitRequested = (w.quitRequested || [].any (asksToQuit w.kit)) :=
    (Bool.or_false _).symm
  cases c with
  | openOn windows => exact (w.openOn_input windows).2.2.2.trans hnone
  | close => refine Eq.trans ?_ hnone; show w.close.quitRequested = _; rw [close]; split <;> rfl
  | present f => exact (w.present_input f).2.2.2.trans hnone
  | poll =>
    rw [obey_poll, taken]
    split
    · rfl
    · exact hnone
  | receive e =>
    obtain ⟨events, he⟩ := w.obey_receive_frame e
    rw [he]
    exact hnone
  | setLayout layout => exact hnone

theorem quitRequested_live (w : Window) (cs : List Call) :
    (w.live cs).quitRequested = (w.quitRequested || (w.polled cs).any (asksToQuit w.kit)) := by
  induction cs generalizing w with
  | nil => exact (Bool.or_false _).symm
  | cons c cs ih =>
    have hkit : (w.obey c).kit = w.kit := congrArg Prod.fst (w.shape_obey c)
    show ((w.obey c).live cs).quitRequested = _
    rw [ih, hkit, quitRequested_obey, polled, List.any_append, Bool.or_assoc]

/-- While host events are sent, the polls get the batches, each in terms of the keypad, and what is
in no batch waits. -/
theorem live_input (hl : w.listening = true) {cs : List Call} (hclose : .close ∉ cs) :
    List.Forall₂ (fun answer batch => ∃ ks, answer = .ok ks ∧ Translates w.kit batch.1 batch.2 ks)
      (w.answers cs) (batches w.layout w.events cs) ∧
    w.events ++ cs.filterMap Call.arrival? =
      (batches w.layout w.events cs).flatMap Prod.snd ++ (w.live cs).events ∧
    w.polled cs = (batches w.layout w.events cs).flatMap Prod.snd := by
  induction cs generalizing w with
  | nil => exact ⟨.nil, List.append_nil _, rfl⟩
  | cons c cs ih =>
    rw [List.mem_cons, not_or] at hclose
    by_cases hpoll : c = .poll
    · subst hpoll
      have hobey : w.obey .poll =
          { w with
            events := []
            quitRequested := w.quitRequested || w.events.any (asksToQuit w.kit) } := by
        rw [obey_poll, if_pos hl]
      have hanswer : w.poll.map Prod.fst = .ok (w.events.filterMap (keyEvent? w.kit w.layout)) := by
        rw [poll, if_pos hl]
        rfl
      obtain ⟨hanswers, hevents, hpolled⟩ := @ih (w.obey .poll) (by rw [hobey]; exact hl) hclose.2
      rw [hobey] at hanswers hevents hpolled
      rw [List.nil_append] at hevents
      refine ⟨.cons ⟨_, hanswer, translates_filterMap _ _ _⟩ ?_, ?_, ?_⟩
      · rw [hobey]; exact hanswers
      · show w.events ++ cs.filterMap Call.arrival? = _ ++ ((w.obey .poll).live cs).events
        rw [hevents, hobey, batches, List.flatMap_cons, List.append_assoc]
      · rw [polled, taken, if_pos hl, hobey, hpolled, batches, List.flatMap_cons]
    · obtain ⟨hlistening, hevents, hlayout⟩ := obey_input hl (Ne.symm hclose.1) hpoll
      obtain ⟨hbatches, hanswers, htaken⟩ := of_ne_poll hpoll w cs
      have hkit : (w.obey c).kit = w.kit := congrArg Prod.fst (w.shape_obey c)
      obtain ⟨ihanswers, ihevents, ihpolled⟩ := ih hlistening hclose.2
      rw [hkit] at ihanswers
      rw [hbatches, hanswers, polled, htaken, ← hevents, ← hlayout]
      refine ⟨ihanswers, Eq.trans ?_ ihevents, ihpolled⟩
      rw [hevents, List.append_assoc, List.filterMap_cons]
      cases c.arrival? <;> rfl

end

/-- From any moment at which a window is open, and as long as nobody closes it, each poll returns
the key events that the host events since the poll before stand for in the layout of that moment.
The host events that were there and that have come are those of the batches, in their order, and
those that still wait. The window is asked to quit if one of all the events polled so far asks for
it, and stays so. -/
theorem input_translated (kit : Toolkit) (layout : KeyLayout) (scale width height : Int)
    (before cs : List Call) :
    let w := (new kit layout scale width height).live before
    let polledBefore := (new kit layout scale width height).polled before
    (w.isOpen = true → .close ∉ cs →
      let bs := batches w.layout w.events cs
      List.Forall₂ (fun answer batch => ∃ ks, answer = .ok ks ∧ Translates kit batch.1 batch.2 ks)
        (w.answers cs) bs ∧
      w.events ++ cs.filterMap Call.arrival? = bs.flatMap Prod.snd ++ (w.live cs).events ∧
      ((w.live cs).quitRequested = true ↔
        ∃ e ∈ polledBefore ++ bs.flatMap Prod.snd, AsksToQuit kit e)) ∧
    ((w.live cs).quitRequested = true ↔ ∃ e ∈ polledBefore ++ w.polled cs, AsksToQuit kit e) ∧
    (w.quitRequested = true → (w.live cs).quitRequested = true) := by
  intro w polledBefore
  have hkit : w.kit = kit := congrArg Prod.fst (shape_live _ before)
  have hquit : (w.live cs).quitRequested = true ↔
      ∃ e ∈ polledBefore ++ w.polled cs, AsksToQuit kit e := by
    rw [← live_append, quitRequested_live, polled_append]
    simp only [new, Bool.false_or, List.any_eq_true, asksToQuit_iff]
    rfl
  refine ⟨fun hopen hclose => ?_, hquit, fun h => by rw [quitRequested_live, h, Bool.true_or]⟩
  have hlistening := attended_live kit layout scale width height before hopen
  obtain ⟨hanswers, hevents, hpolled⟩ := live_input (w := w) hlistening hclose
  rw [hkit] at hanswers
  exact ⟨hanswers, hevents, hpolled ▸ hquit⟩

/-- The first layout names Escape, and another one is set before the second poll. In the end the
window is closed and opened again. -/
theorem input_translated_of_escape :
    let kit := Desktop.toolkit
    let q := Desktop.Keys.ofChar 'q'
    let x := Desktop.Keys.ofChar 'x'
    let layout : KeyLayout := ⟨("escape", 0x0) :: KeyLayout.standard.entries.tail⟩
    let before : List Call := [.openOn .ready, .receive (.key q true)]
    let cs : List Call := [.receive (.key kit.escape true), .receive (.key x true), .poll,
      .receive (.key q false), .present [[1, 0], [0, 1]], .setLayout .standard, .receive .other,
      .receive (.key x false), .poll, .poll]
    let w := (new kit layout 1 2 2).live before
    kit.keyName kit.escape = "escape" ∧ kit.keyName q = "q" ∧ w.isOpen = true ∧
      w.quitRequested = false ∧ (w.live cs).quitRequested = true ∧
      ((w.live cs).live [.close, .openOn .ready, .poll]).quitRequested = true ∧
      List.Forall₂ (fun answer batch => ∃ ks, answer = .ok ks ∧ Translates kit batch.1 batch.2 ks)
        (w.answers cs) [(layout, [.key q true, .key kit.escape true, .key x true]),
          (.standard, [.key q false, .other, .key x false]), (.standard, [])] ∧
      (w.answers cs).map Except.toOption =
        [some [⟨0x4, true⟩], some [⟨0x4, false⟩, ⟨0x0, false⟩], some []] := by
  intro kit q x layout before cs w
  have hopen : w.isOpen = true := by decide +kernel
  have hpolled : .key kit.escape true ∈ w.polled cs := by decide +kernel
  have hbatches : batches w.layout w.events cs =
      [(layout, [.key q true, .key kit.escape true, .key x true]),
        (.standard, [.key q false, .other, .key x false]), (.standard, [])] := by decide +kernel
  obtain ⟨hwhile, hquit, -⟩ := input_translated kit layout 1 2 2 before cs
  obtain ⟨-, -, hstays⟩ :=
    input_translated kit layout 1 2 2 (before ++ cs) [.close, .openOn .ready, .poll]
  obtain ⟨hanswers, -, -⟩ := hwhile hopen (by simp [cs])
  have hasked : (w.live cs).quitRequested = true :=
    hquit.2 ⟨_, List.mem_append_right _ hpolled, .inr ⟨true, rfl⟩⟩
  rw [live_append] at hstays
  refine ⟨by decide +kernel, by decide +kernel, hopen, by decide +kernel, hasked, hstays hasked, ?_,
    by decide +kernel⟩
  rw [← hbatches]
  exact hanswers

end ChipEight.Window
