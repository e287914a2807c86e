import ChipEight.Window
import Mathlib.Data.List.Basic

/-! # The life of a window

What callers and the host do with a window, as a list of calls (`Window.live`). A call that goes
wrong is a call like any other, after which the window goes on. `Presenting` and `Opening` list all
that may come of a frame that is presented and of an attempt to open, whatever the toolkit.

A window keeps its `shape`, and while it is open the host sends events (`attended_live`).
-/

namespace ChipEight.Window

inductive Call
  | openOn (windows : WindowSystem)
  | close
  | present (f : Frame)
  | poll
  | receive (e : HostEvent)
  | setLayout (layout : KeyLayout)

def obey (w : Window) : Call → Window
  | .openOn windows => (w.openOn windows).1
  | .close => w.close
  | .present f => (w.present f).1
  | .poll =>
    match w.poll with
    | .ok (_, w') => w'
    | .error _ => w
  | .receive e =>
    match w.receive e with
    | .ok w' => w'
    | .error _ => w
  | .setLayout layout => { w with layout }

def live (w : Window) (cs : List Call) : Window := cs.foldl obey w

/-- What may come of a frame that is presented. -/
inductive Presenting (w : Window) (f : Frame) : Window × Option Error → Prop
  | unseen (hface : w.face = none) : Presenting w f (w, none)
  | skipped {face : Image} (hface : w.face = some face) (hlast : w.last = some f) :
    Presenting w f ({ w with skipped := w.skipped + 1 }, none)
  | refused {face : Image} {e : Error} (hface : w.face = some face) (hlast : w.last ≠ some f)
    (hpaint : w.paint f = .error e) : Presenting w f ({ w with last := some f }, some e)
  | painted {face canvas : Image} (hface : w.face = some face) (hlast : w.last ≠ some f)
    (hpaint : w.paint f = .ok canvas) :
    Presenting w f
      ({ w with
          last := some f
          canvas := some canvas
          face := some (w.kit.stretch canvas face.width face.height)
          frames := w.frames + 1 }, none)

/-- What may come of an attempt to open. -/
inductive Opening (w : Window) : Window × Option OpenError → Prop
  | refused {e : OpenError} (listening : Bool) (hlistening : w.listening → listening) :
    Opening w ({ w with listening }, some e)
  | frameless {size : Nat × Nat} {e : Toolkit.Error}
    (hsize : w.kit.openWindow (w.width * w.scale) (w.height * w.scale) = .ok size)
    (hsurface : w.kit.newSurface w.width w.height = .error e) :
    Opening w
      ({ w with listening := true, face := some (.filled size.1 size.2 background) },
        some (.toolkit e))
  | opened {size : Nat × Nat} {surface : Image}
    (hsize : w.kit.openWindow (w.width * w.scale) (w.height * w.scale) = .ok size)
    (hsurface : w.kit.newSurface w.width w.height = .ok surface) :
    Opening w
      ({ w with
          listening := true
          face := some (.filled size.1 size.2 background)
          canvas := some surface
          last := none }, none)

section
variable (w : Window)

theorem live_append (cs ds : List Call) : w.live (cs ++ ds) = (w.live cs).live ds :=
  List.foldl_append

theorem obey_poll :
    w.obey .poll =
      if w.listening then
        { w with
          events := []
          quitRequested := w.quitRequested || w.events.any (asksToQuit w.kit) }
      else w := by
  simp only [obey, poll]
  by_cases hl : w.listening = true
  · rw [if_pos hl, if_pos hl]
  · rw [if_neg hl, if_neg hl]

theorem obey_receive (e : HostEvent) :
    w.obey (.receive e) = if w.listening then { w with events := w.events ++ [e] } else w := by
  simp only [obey, receive]
  by_cases hl : w.listening = true
  · rw [if_pos hl, if_pos hl]
  · rw [if_neg hl, if_neg hl]

/-- A host event changes nothing but what waits for the next poll. -/
theorem obey_receive_frame (e : HostEvent) : ∃ events, w.obey (.receive e) = { w with events } := by
  rw [obey_receive]
  split
  · exact ⟨_, rfl⟩
  · exact ⟨w.events, rfl⟩

theorem presenting (f : Frame) : w.Presenting f (w.present f) := by
  unfold present
  split
  next hface => exact .unseen hface
  next face hface =>
    split
    next hlast => exact .skipped hface hlast
    next hlast =>
      have hsame : { w with last := some f }.paint f = w.paint f := rfl
      simp only [hsame]
      split
      next hpaint => exact .refused hface hlast hpaint
      next hpaint => exact .painted hface hlast hpaint

theorem opening (windows : WindowSystem) : w.Opening (w.openOn windows) := by
  cases windows with
  | missing reason => exact .refused w.listening id
  | unavailable reason => exact .refused w.listening id
  | ready =>
    simp only [openOn]
    split
    · exact .refused true fun _ => rfl
    · exact .refused true fun _ => rfl
    next hsize =>
      cases hsurface : w.kit.newSurface w.width w.height with
      | error e => exact .frameless hsize hsurface
      | ok surface => exact .opened hsize hsurface

end

/-- What a window is made with and keeps: its toolkit, its scale, and the size of its frames. -/
def shape (w : Window) : Toolkit × Nat × Int × Int := (w.kit, w.scale, w.width, w.height)

theorem shape_obey (w : Window) (c : Call) : (w.obey c).shape = w.shape := by
  cases c with
  | openOn windows =>
    have hopening := w.opening windows
    show (w.openOn windows).1.shape = w.shape
    generalize w.openOn windows = out at hopening
    cases hopening <;> rfl
  | present f =>
    have hpresenting := w.presenting f
    show (w.present f).1.shape = w.shape
    generalize w.present f = out at hpresenting
    cases hpresenting <;> rfl
  | close => show w.close.shape = w.shape; rw [close]; split <;> rfl
  | poll => rw [obey_poll]; split <;> rfl
  | receive e => obtain ⟨events, he⟩ := w.obey_receive_frame e; rw [he]; rfl
  | setLayout layout => rfl

theorem shape_live (w : Window) (cs : List Call) : (w.live cs).shape = w.shape :=
  List.foldlRecOn (motive := fun w' : Window => w'.shape = w.shape) cs _ rfl
    fun w' hw' c _ => (w'.shape_obey c).trans hw'

/-- While the window is open the host sends events. -/
def Attended (w : Window) : Prop := w.isOpen = true → w.listening = true

theorem Attended.obey {w : Window} (h : w.Attended) (c : Call) : (w.obey c).Attended := by
  cases c with
  | openOn windows =>
    have hopening := w.opening windows
    show (w.openOn windows).1.Attended
    generalize w.openOn windows = out at hopening
    cases hopening with
    | refused listening hlistening => exact fun hopen => hlistening (h hopen)
    | frameless | opened => exact fun _ => rfl
  | present f =>
    have hpresenting := w.presenting f
    show (w.present f).1.Attended
    generalize w.present f = out at hpresenting
    cases hpresenting with
    | unseen | skipped | refused => exact h
    | painted hface => exact fun _ => h (by rw [isOpen, hface]; rfl)
  | close =>
    show w.close.Attended
    unfold close
    split
    · exact nofun
    · exact h
  | poll => rw [obey_poll]; split <;> exact h
  | receive e => obtain ⟨events, he⟩ := w.obey_receive_frame e; rw [he]; exact h
  | setLayout layout => exact h

theorem attended_live (kit : Toolkit) (layout : KeyLayout) (scale width height : Int)
    (cs : List Call) : ((new kit layout scale width height).live cs).Attended :=
  List.foldlRecOn (motive := Attended) cs _ nofun fun _ hw c _ => hw.obey c

end ChipEight.Window
