import ChipEight.Frame
import ChipEight.Keypad
import ChipEight.KeyLayout
import ChipEight.Toolkit

/-! # Windows

A window shows frames of one size, each pixel as a square of `scale` by `scale` window pixels, and
turns the host's key events into events of the keypad. Escape and the close button ask to quit.

A frame equal to the one presented before is not painted again. A frame is remembered as presented
before it is painted, so one that the toolkit does not take is refused once and then passed over.

Host events come in from the first attempt to open the window on, even if it fails.
-/

namespace ChipEight

/-- What opens windows: nothing at all, something that fails, for the reason given, or a toolkit
that can be asked. -/
inductive WindowSystem
  | missing (reason : String)
  | unavailable (reason : String)
  | ready
deriving DecidableEq

namespace Window

/-- What the host tells of. Keys go by their codes. -/
inductive HostEvent
  | close
  | key (code : Int) (down : Bool)
  | other
deriving DecidableEq, Repr

inductive OpenError
  | missing (reason : String)
  | unavailable (reason : String)
  /-- An error of the toolkit that is not its word for a window that cannot be opened. -/
  | toolkit (e : Toolkit.Error)
deriving DecidableEq, Repr

def OpenError.message? : OpenError → Option String
  | .missing reason => some reason
  | .unavailable reason => some ("cannot open window: " ++ reason)
  | .toolkit e => e.message?

inductive Error
  /-- The host sends no events. -/
  | noEvents
  /-- There is no surface to paint on. -/
  | frameless
  | toolkit (e : Toolkit.Error)
deriving DecidableEq, Repr

def Error.message? : Error → Option String
  | .toolkit e => e.message?
  | _ => none

end Window

structure Window where
  kit : Toolkit
  layout : KeyLayout
  scale : Nat
  width : Int
  height : Int
  title : String
  quitRequested : Bool
  frames : Nat
  /-- Frames that were not painted because they were presented before. -/
  skipped : Nat
  /-- What is shown, if the window is open. -/
  face : Option Image
  /-- The surface that frames are painted on before they are stretched over the window. -/
  canvas : Option Image
  /-- The frame presented last since the window was opened. -/
  last : Option Frame
  /-- The host sends events. -/
  listening : Bool
  /-- Host events since the last poll. -/
  events : List Window.HostEvent

namespace Window

def usualScale : Int := 10

/-- The colours of a lit pixel and of a dark one. -/
def foreground : Colour := ⟨255, 255, 255⟩

def background : Colour := ⟨0, 0, 0⟩

/-- A window before it is opened. A scale below one counts as one. -/
def new (kit : Toolkit) (layout : KeyLayout) (scale width height : Int) : Window where
  kit := kit
  layout := layout
  scale := (max 1 scale).toNat
  width := width
  height := height
  title := "CHIP-8"
  quitRequested := false
  frames := 0
  skipped := 0
  face := none
  canvas := none
  last := none
  listening := false
  events := []

def isOpen (w : Window) : Bool := w.face.isSome

/-- Opens a dark window. A window that is open is replaced, and host events stay. Where there is a
window and no surface for it, the window stays open. -/
def openOn (w : Window) : WindowSystem → Window × Option OpenError
  | .missing reason => (w, some (.missing reason))
  | .unavailable reason => (w, some (.unavailable reason))
  | .ready =>
    let w := { w with listening := true }
    match w.kit.openWindow (w.width * w.scale) (w.height * w.scale) with
    | .error (.refused reason) => (w, some (.unavailable reason))
    | .error e => (w, some (.toolkit e))
    | .ok (width, height) =>
      let w := { w with face := some (.filled width height background) }
      match w.kit.newSurface w.width w.height with
      | .error e => (w, some (.toolkit e))
      | .ok canvas => ({ w with canvas := some canvas, last := none }, none)

/-- Closes the window. Host events that nobody asked for are lost. -/
def close (w : Window) : Window :=
  if w.isOpen then { w with face := none, listening := false, events := [] } else w

/-- A host event, which waits for the next poll. -/
def receive (w : Window) (e : HostEvent) : Except Error Window :=
  if w.listening then .ok { w with events := w.events ++ [e] } else .error .noEvents

/-- What a host event says to the keypad: nothing, if it is not a key that the layout names. -/
def keyEvent? (kit : Toolkit) (layout : KeyLayout) : HostEvent → Option KeyEvent
  | .key code down =>
    if code = kit.escape then none
    else (layout.lookup (kit.keyName code)).map fun key => ⟨key, down⟩
  | _ => none

def asksToQuit (kit : Toolkit) : HostEvent → Bool
  | .close => true
  | .key code _ => code = kit.escape
  | .other => false

def poll (w : Window) : Except Error (List KeyEvent × Window) :=
  if w.listening then
    .ok (w.events.filterMap (keyEvent? w.kit w.layout),
      { w with
        events := []
        quitRequested := w.quitRequested || w.events.any (asksToQuit w.kit) })
  else .error .noEvents

def colourOf (byte : UInt8) : Colour := if byte ≠ 0 then foreground else background

/-- The surface with a frame on it. The bytes of the frame are looked at before the surface. -/
def paint (w : Window) (f : Frame) : Except Error Image :=
  match w.kit.shareOut f.flatten f.length, w.canvas with
  | .error e, _ => .error (.toolkit e)
  | .ok _, none => .error .frameless
  | .ok bytes, some canvas => (w.kit.blit canvas (bytes.map colourOf)).mapError .toolkit

/-- Shows a frame, unless it is the one presented last. -/
def present (w : Window) (f : Frame) : Window × Option Error :=
  match w.face with
  | none => (w, none)
  | some face =>
    if w.last = some f then ({ w with skipped := w.skipped + 1 }, none)
    else
      let w := { w with last := some f }
      match w.paint f with
      | .error e => (w, some e)
      | .ok canvas =>
        ({ w with
            canvas := some canvas
            face := some (w.kit.stretch canvas face.width face.height)
            frames := w.frames + 1 }, none)

end Window

end ChipEight
