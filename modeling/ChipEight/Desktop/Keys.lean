/-! # The keys of a desktop

A key has a code. Those that write a character have the character for one, letters in lower case;
the others are numbered. A text stands for the key of a character, or for a key with a name of
several characters in either case, and the desktop calls a key by a name of its own, which is empty
for a key that it has none for.
-/

namespace ChipEight.Desktop.Keys

inductive Error
  | unknown
  | embeddedNul
deriving DecidableEq, Repr

def Error.message : Error → String
  | .unknown => "unknown key name"
  | .embeddedNul => "embedded null character"

/-- The keys with a long name that write a character. -/
def writing : List (String × Char) :=
  [("backspace", '\x08'), ("tab", '\t'), ("return", '\r'), ("escape", '\x1b'), ("space", ' '),
    ("delete", '\x7f')]

/-- What the other keys are called. -/
def called : List String :=
  ["clear", "[0]", "[1]", "[2]", "[3]", "[4]", "[5]", "[6]", "[7]", "[8]", "[9]", "[.]", "[/]",
    "[*]", "[-]", "[+]", "enter", "equals", "up", "down", "right", "left", "insert", "home", "end",
    "page up", "page down", "f1", "f2", "f3", "f4", "f5", "f6", "f7", "f8", "f9", "f10", "f11",
    "f12", "f13", "f14", "f15", "numlock", "caps lock", "scroll lock", "right shift", "left shift",
    "right ctrl", "left ctrl", "right alt", "left alt", "right meta", "left meta", "alt gr", "help",
    "print screen", "sys req", "break", "menu", "power", "euro", "AC Back", "CurrencySubUnit"]

/-- Other texts for these keys, each with what its key is called. -/
def aliases : List (String × String) :=
  [("pause", "break"), ("capslock", "caps lock"), ("scrolllock", "scroll lock"),
    ("printscreen", "print screen"), ("pageup", "page up"), ("pagedown", "page down"),
    ("sysreq", "sys req"), ("left gui", "left meta"), ("right gui", "right meta"),
    ("modeswitch", "alt gr"), ("currencyunit", "euro"), ("ac back", "AC Back"),
    ("currencysubunit", "CurrencySubUnit"),
    ("keypad 0", "[0]"), ("keypad 1", "[1]"), ("keypad 2", "[2]"), ("keypad 3", "[3]"),
    ("keypad 4", "[4]"), ("keypad 5", "[5]"), ("keypad 6", "[6]"), ("keypad 7", "[7]"),
    ("keypad 8", "[8]"), ("keypad 9", "[9]"), ("keypad .", "[.]"), ("keypad /", "[/]"),
    ("keypad *", "[*]"), ("keypad -", "[-]"), ("keypad +", "[+]"), ("keypad enter", "enter"),
    ("keypad =", "equals")]

/-- Texts for keys that are called nothing. -/
def nameless : List String :=
  ["f16", "f17", "f18", "f19", "f20", "f21", "f22", "f23", "f24", "application", "execute",
    "select", "stop", "again", "undo", "cut", "copy", "paste", "find", "mute", "volumeup",
    "volumedown", "alterase", "cancel", "prior", "separator", "out", "oper", "clear / again",
    "crsel", "exsel", "thousandsseparator", "decimalseparator", "keypad ,", "keypad = (as400)",
    "keypad 00", "keypad 000", "keypad (", "keypad )", "keypad \x7b", "keypad \x7d", "keypad tab",
    "keypad backspace", "keypad a", "keypad b", "keypad c", "keypad d", "keypad e", "keypad f",
    "keypad xor", "keypad ^", "keypad %", "keypad <", "keypad >", "keypad &", "keypad &&",
    "keypad |", "keypad ||", "keypad :", "keypad #", "keypad space", "keypad @", "keypad !",
    "keypad memstore", "keypad memrecall", "keypad memclear", "keypad memadd", "keypad memsubtract",
    "keypad memmultiply", "keypad memdivide", "keypad +/-", "keypad clear", "keypad clearentry",
    "keypad binary", "keypad octal", "keypad decimal", "keypad hexadecimal", "audionext",
    "audioprev", "audiostop", "audioplay", "audiomute", "mediaselect", "www", "mail", "calculator",
    "computer", "ac search", "ac home", "ac forward", "ac stop", "ac refresh", "ac bookmarks",
    "brightnessdown", "brightnessup", "displayswitch", "kbdillumtoggle", "kbdillumdown",
    "kbdillumup", "eject", "sleep", "app1", "app2", "audiorewind", "audiofastforward", "softleft",
    "softright", "call", "endcall"]

def ofChar (c : Char) : Int := c.toLower.toNat

def escape : Int := ofChar '\x1b'

/-- Above the code of any character. -/
def firstNumber : Int := 0x40000000

def numberOf? (name : String) : Option Int :=
  ((called ++ nameless).idxOf? name).map fun place => firstNumber + place

/-- The key of a text of several characters, if there is one. -/
def ofLongName? (text : String) : Option Int :=
  let text := text.map Char.toLower
  match writing.lookup text with
  | some c => some (ofChar c)
  | none => numberOf? ((aliases.lookup text).getD text)

/-- The key that a text stands for. -/
def ofText (text : String) : Except Error Int :=
  match text.toList with
  | [] => .error .unknown
  | cs =>
    if cs.contains '\x00' then .error .embeddedNul
    else
      match cs with
      | [c] => .ok (ofChar c)
      | _ => (ofLongName? text).elim (.error .unknown) .ok

/-- What the key of a character is called. Braces, the bar and the tilde have no name, and neither
has any character outside of ASCII. -/
def nameOfChar (c : Char) : String :=
  match writing.find? fun key => key.2 == c with
  | some (name, _) => name
  | none => if '!' ≤ c ∧ c ≤ 'z' then String.singleton c else ""

/-- What the key of a code is called. -/
def name (code : Int) : String :=
  if code < firstNumber then nameOfChar (Char.ofNat code.toNat)
  else called.getD (code - firstNumber).toNat ""

end ChipEight.Desktop.Keys
