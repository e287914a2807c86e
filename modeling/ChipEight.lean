import ChipEight.Application
import ChipEight.Audio
import ChipEight.Buzzer
import ChipEight.ByteSource
import ChipEight.CommandLine
import ChipEight.CommandLine.Scan
import ChipEight.Desktop
import ChipEight.Desktop.Keys
import ChipEight.Desktop.Mixer
import ChipEight.Directory
import ChipEight.Font
import ChipEight.Frame
import ChipEight.Instruction
import ChipEight.Instruction.Assembly
import ChipEight.KeyLayout
import ChipEight.Keypad
import ChipEight.Listing
import ChipEight.Log
import ChipEight.Machine
import ChipEight.Machine.Report
import ChipEight.Machine.Step
import ChipEight.Machine.Timers
import ChipEight.Machine.Trace
import ChipEight.Main
import ChipEight.Memory
import ChipEight.Opcode
import ChipEight.Options
import ChipEight.Proofs.Application.Course
import ChipEight.Proofs.Application.ExitCode
import ChipEight.Proofs.Application.FinalScreen
import ChipEight.Proofs.Buzzer
import ChipEight.Proofs.Buzzer.Stray
import ChipEight.Proofs.CommandLine
import ChipEight.Proofs.Frame
import ChipEight.Proofs.Frame.Size
import ChipEight.Proofs.Frame.Transpose
import ChipEight.Proofs.Instruction.Assembly
import ChipEight.Proofs.Instruction.Decode
import ChipEight.Proofs.KeyLayout
import ChipEight.Proofs.Keypad
import ChipEight.Proofs.Listing
import ChipEight.Proofs.Machine.Arithmetic
import ChipEight.Proofs.Machine.CallReturn
import ChipEight.Proofs.Machine.Contained
import ChipEight.Proofs.Machine.Disassembly
import ChipEight.Proofs.Machine.Event
import ChipEight.Proofs.Machine.Fault
import ChipEight.Proofs.Machine.Footprint
import ChipEight.Proofs.Machine.KeyBalance
import ChipEight.Proofs.Machine.KeyWait
import ChipEight.Proofs.Machine.Listed
import ChipEight.Proofs.Machine.Noninterference
import ChipEight.Proofs.Machine.Records
import ChipEight.Proofs.Machine.Report
import ChipEight.Proofs.Machine.Sprite
import ChipEight.Proofs.Machine.Step
import ChipEight.Proofs.Machine.Tick
import ChipEight.Proofs.Machine.Tone
import ChipEight.Proofs.Machine.Trace
import ChipEight.Proofs.Machine.Transfer
import ChipEight.Proofs.Machine.WellFormed
import ChipEight.Proofs.Memory
import ChipEight.Proofs.Memory.Growth
import ChipEight.Proofs.Memory.History
import ChipEight.Proofs.Screen.Count
import ChipEight.Proofs.Screen.Draw
import ChipEight.Proofs.Screen.Pixels
import ChipEight.Proofs.Screen.Strokes
import ChipEight.Proofs.Session.Atomic
import ChipEight.Proofs.Session.Contained
import ChipEight.Proofs.Session.Counters
import ChipEight.Proofs.Session.Delivery
import ChipEight.Proofs.Session.Frames
import ChipEight.Proofs.Session.History
import ChipEight.Proofs.Session.Loading
import ChipEight.Proofs.Session.Logging
import ChipEight.Proofs.Session.Meet
import ChipEight.Proofs.Session.Ordinary
import ChipEight.Proofs.Session.Report
import ChipEight.Proofs.Session.Resume
import ChipEight.Proofs.Session.Run
import ChipEight.Proofs.Session.Serviceable
import ChipEight.Proofs.Session.Standing
import ChipEight.Proofs.Session.Stop
import ChipEight.Proofs.Session.Verdict
import ChipEight.Proofs.Text.Fields
import ChipEight.Proofs.Text.Hex
import ChipEight.Proofs.Toolkit
import ChipEight.Proofs.Window.Cache
import ChipEight.Proofs.Window.Input
import ChipEight.Proofs.Window.Life
import ChipEight.Proofs.Window.Recall
import ChipEight.Recorder
import ChipEight.Renderer
import ChipEight.Screen
import ChipEight.Session
import ChipEight.Session.Report
import ChipEight.Session.Run
import ChipEight.Session.Tick
import ChipEight.Text.Blank
import ChipEight.Text.Digit
import ChipEight.Text.Hex
import ChipEight.Text.Integer
import ChipEight.Text.Printable
import ChipEight.Text.Quoted
import ChipEight.Toolkit
import ChipEight.Wave
import ChipEight.Window
import ChipEight.Word
