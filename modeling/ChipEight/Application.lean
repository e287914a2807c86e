import ChipEight.Directory
import ChipEight.Listing
import ChipEight.Options
import ChipEight.Session.Report
import ChipEight.Session.Run

/-! # The program as a whole

From the arguments to what is printed and the exit code, in three parts: `launch` does all that
comes before the run, `Running.conclude` all that comes after it, and `Application.run` puts a run
on given arrivals in between.

The exit code is 2 for a command line that cannot be read and for a run that ends in a fault, 1 for
anything else that keeps the run from beginning, and 0 otherwise.
-/

namespace ChipEight

/-- What the program finds around it. -/
structure Host where
  /-- How the arguments are read. -/
  dialect : CommandLine.Dialect
  read : String → Except OpenError (List UInt8)
  windows : WindowSystem
  toolkit : Toolkit
  mixer : Mixer
  random : ByteSource
  /-- The characters beyond ASCII that can be printed on the standard output. -/
  encodes : Char → Bool

namespace Application

/-- What ends the program without an exit code. -/
inductive Escape
  | run (e : Session.Failure)
  | window (e : Window.OpenError)
  | buzzer (e : Buzzer.OpenError)
  /-- An option that was left blank where its value was needed. -/
  | blank (key : Options.Key)
  | embeddedNul
  /-- A text with characters that cannot be printed. -/
  | unprintable
deriving DecidableEq, Repr

def embeddedNulMessage : String := "embedded null byte"

inductive Ending
  | exit (code : Nat)
  | escaped (e : Escape)
deriving DecidableEq, Repr

structure Outcome where
  ending : Ending
  /-- What is printed on the standard output, and on the standard error. -/
  out : String
  err : String
  /-- The session as the program leaves it, if it came to a run. -/
  session : Option Session

/-- The end of a program that does not come to a run. -/
def early (code : Nat) (out err : String) : Outcome := ⟨.exit code, out, err, none⟩

/-- A program that is ready to run, and what it printed so far. -/
structure Running where
  options : Options
  session : Session
  out : String
  err : String

/-- The end of a program that something escapes before it comes to a run. -/
def stranded (e : Escape) (out err : String) : Outcome := ⟨.escaped e, out, err, none⟩

/-- Without names, or with an empty text of them, the layout is the standard one. -/
def layout (o : Options) : Except KeyLayout.LayoutError KeyLayout :=
  let names := if o.isBlank .keys then "" else o.keys.getD ""
  if names = "" then .ok .standard
  else KeyLayout.ofNames ((names.toList.splitOn ',').map String.ofList)

def listingText (image : List UInt8) : String :=
  String.join ((Listing.lines programStart image).map (· ++ "\n"))

def loadedText (o : Options) (image : List UInt8) : String :=
  "Loaded " ++ toString image.length ++ " bytes from '" ++ o.rom ++ "' at " ++
    Hex.literal 1 programStart ++ "\n"

/-- Of what is printed on the standard output, only the name of the file may be beyond ASCII. -/
def printable (host : Host) (o : Options) : Bool :=
  o.rom.toList.all fun c => c.toNat < 128 || host.encodes c

def openedText (o : Options) : String :=
  "[display] window opened (scale=" ++ toString o.scale ++ "x)\n"

/-- What a window that cannot be opened is answered with. Any other error of the window escapes. -/
def windowErrorText? : Window.OpenError → Option String
  | .missing reason => some ("[display] pygame not available: " ++ reason ++
      "\n[display] Install with: pip install pygame\n")
  | e@(.unavailable _) => e.message?.map fun text => "[display] " ++ text ++ "\n"
  | .toolkit _ => none

/-- The end of a program that finds no window. -/
def windowless (e : Window.OpenError) (out err : String) : Outcome :=
  match windowErrorText? e with
  | some text => early 1 out (err ++ text)
  | none => stranded (.window e) out err

/-- What a mixer that is out of reach is answered with. Any other error of the buzzer escapes. -/
def silenceText? : Buzzer.OpenError → Option String
  | e@(.unavailable _) =>
    e.message?.map fun text => "[audio] " ++ text ++ "; continuing without sound\n"
  | _ => none

/-- A session with the image in memory, before anything is opened. -/
def idle (host : Host) (o : Options) (layout : KeyLayout) : Session :=
  let renderer :=
    if o.headless then Renderer.recorder (.new (some Recorder.usualCapacity))
    else .window (.new host.toolkit layout o.scale screenWidth screenHeight)
  .ofRates (.fresh .silent host.random) renderer o.cycleRate o.timerRate
    (Log.thresholdFor o.verbosity)

/-- Opens the window, if there is one, and tells what to print. -/
def openWindow (host : Host) (o : Options) (s : Session) :
    Except Window.OpenError (Session × String) :=
  match s.renderer with
  | .window w =>
    match w.openOn host.windows with
    | (_, some e) => .error e
    | (w, none) => .ok ({ s with renderer := .window w }, openedText o)
  | _ => .ok (s, "")

/-- Opens the buzzer, unless the program is mute, and tells what to print. -/
def openBuzzer (host : Host) (o : Options) (s : Session) :
    Except Buzzer.OpenError (Session × String) :=
  if o.mute || o.headless then .ok (s, "")
  else
    match ({} : Buzzer).openOn host.mixer with
    | (b, none) => .ok ({ s with machine := { s.machine with audio := .buzzer b } }, "")
    | (_, some e) => (silenceText? e).elim (.error e) fun text => .ok (s, text)

/-- A program that has its image. -/
def equip (host : Host) (o : Options) (layout : KeyLayout) (image : List UInt8) :
    Except Outcome Running :=
  match (idle host o layout).load image with
  | (_, some e) => .error (early 1 "" ("Error: " ++ e.message ++ "\n"))
  | (s, none) =>
    let loaded := loadedText o image
    if !printable host o then .error (stranded .unprintable "" s.log.text)
    else
      match openWindow host o s with
      | .error e => .error (windowless e loaded s.log.text)
      | .ok (s, opened) =>
        match openBuzzer host o s with
        | .error e => .error (stranded (.buzzer e) (loaded ++ opened) s.log.text)
        | .ok (s, silence) =>
          .ok ⟨o, { s with log := s.log.clear }, loaded ++ opened, s.log.text ++ silence⟩

def prepare (host : Host) (o : Options) : Except Outcome Running :=
  match layout o with
  | .error e => .error (early 1 "" ("Error: --keys: " ++ e.message ++ "\n"))
  | .ok layout =>
    match host.read o.rom with
    | .error .embeddedNul => .error (stranded .embeddedNul "" "")
    | .error e =>
      .error (early 1 ""
        ("Error: cannot read program '" ++ o.rom ++ "': " ++ e.message o.rom ++ "\n"))
    | .ok image =>
      if o.listing then .error (early 0 (listingText image) "")
      else if !o.headless && o.isBlank .scale then .error (stranded (.blank .scale) "" "")
      else equip host o layout image

def refused (text : String) : Outcome := early 2 "" ("chip8: error: " ++ text ++ "\n")

/-- All that comes before the run, or the outcome if there is none. -/
def launch (host : Host) (args : List String) : Except Outcome Running :=
  match Options.parse host.dialect args with
  | .error e => .error (refused e.message)
  | .ok .help => .error (early 0 "" "")
  | .ok (.run o) =>
    match o.rateError? with
    | some (.blank key) => .error (stranded (.blank key) "" "")
    | some .notPositive => .error (refused Options.rateMessage)
    | none => prepare host o

/-- The session with the clock stopped, the window closed and the buzzer closed. -/
def shutDown (s : Session) : Session :=
  let audio := match s.machine.audio with
    | .buzzer b => .buzzer b.close
    | audio => audio
  { s.stop with renderer := s.renderer.close, machine := { s.machine with audio } }

/-- The last frame of a session without a window, if it had any. -/
def finalScreen (s : Session) : String :=
  match s.renderer with
  | .recorder r =>
    match r.last? with
    | some f => ((f.render "#" ".").toOption.map (· ++ "\n")).getD ""
    | none => ""
  | _ => ""

/-- What a fault at the end of the run is answered with. -/
def faultText (s : Session) : String :=
  match s.fault with
  | some f => "Fatal: " ++ f.message ++ "\n" ++ s.report ++ "\n"
  | none => ""

namespace Running

/-- All that comes after the run, given the session that it left and how it ended. -/
def conclude (r : Running) (s : Session) (ending : Session.Ending) : Outcome :=
  let err := r.err ++ s.log.text
  let s := shutDown s
  match ending with
  | .failed e => ⟨.escaped (.run e), r.out, err, some s⟩
  | .interrupted => ⟨.exit 0, r.out ++ "\nInterrupted.\n" ++ finalScreen s, err, some s⟩
  | .stopped .fault => ⟨.exit 2, r.out ++ finalScreen s, err ++ faultText s, some s⟩
  | .stopped _ => ⟨.exit 0, r.out ++ finalScreen s, err, some s⟩

/-- The end of a run whose limit was left blank. It begins, and ends when it first looks at the
limit. -/
def abandon (r : Running) (arrivals : List Arrival) : Outcome :=
  let s := r.session.begin arrivals
  ⟨.escaped (.blank .maxCycles), r.out, r.err ++ s.log.text, some (shutDown s)⟩

end Running

namespace Outcome

def calls (o : Outcome) : List Buzzer.Call :=
  match o.session with
  | some s =>
    match s.machine.audio with
    | .buzzer b => b.calls
    | _ => []
  | none => []

end Outcome

/-- The program on a clock that sends the given arrivals. -/
def run (host : Host) (args : List String) (arrivals : List Arrival) : Outcome :=
  match launch host args with
  | .error outcome => outcome
  | .ok r =>
    if r.options.isBlank .maxCycles then r.abandon arrivals
    else
      let (s, ending) := r.session.run arrivals r.options.maxCycles
      r.conclude s ending

end Application

end ChipEight
