import ChipEight.Recorder
import ChipEight.Window

/-! # Renderers

What shows the screen and listens to the keys: nothing, a recorder or a window.
-/

namespace ChipEight

inductive Renderer
  | none
  | recorder (r : Recorder)
  | window (w : Window)

namespace Renderer

def quitRequested : Renderer → Bool
  | .none => false
  | .recorder r => r.quitRequested
  | .window w => w.quitRequested

/-- Says whether the user wants to quit, if there is a renderer to say it to. -/
def setQuit? (quit : Bool) : Renderer → Option Renderer
  | .none => Option.none
  | .recorder r => some (.recorder { r with quitRequested := quit })
  | .window w => some (.window { w with quitRequested := quit })

def poll : Renderer → Except Window.Error (List KeyEvent × Renderer)
  | .none => .ok ([], .none)
  | .recorder r => .ok (r.poll.1, .recorder r.poll.2)
  | .window w => w.poll.map fun (events, w) => (events, .window w)

def present (f : Frame) : Renderer → Renderer × Option Window.Error
  | .none => (.none, Option.none)
  | .recorder r => (.recorder (r.present f), Option.none)
  | .window w => (.window (w.present f).1, (w.present f).2)

/-- A key event from outside, which only a recorder takes. -/
def receiveKey? (e : KeyEvent) : Renderer → Option Renderer
  | .recorder r => some (.recorder (r.receive e))
  | _ => Option.none

/-- A host event. Without a window there is no host to send it. -/
def receiveHost (e : Window.HostEvent) : Renderer → Except Window.Error Renderer
  | .window w => (w.receive e).map .window
  | _ => .error .noEvents

/-- The window is closed; nothing else needs closing. -/
def close : Renderer → Renderer
  | .window w => .window w.close
  | renderer => renderer

end Renderer

end ChipEight
