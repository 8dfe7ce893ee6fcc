import Chip8.Arithmetic
import Chip8.CommandLine.Disassembler
import Chip8.CommandLine.Emulator
import Chip8.CommandLine.Exit
import Chip8.CommandLine.Grammar
import Chip8.Dialect
import Chip8.Disk
import Chip8.Fault
import Chip8.Flags
import Chip8.Host.Basic
import Chip8.Host.Script
import Chip8.Instruction.Basic
import Chip8.Instruction.Code
import Chip8.Instruction.Mnemonic
import Chip8.Keyboard
import Chip8.Keypad
import Chip8.Listing
import Chip8.Machine.Basic
import Chip8.Machine.Execute
import Chip8.Machine.Notice
import Chip8.Machine.Operation
import Chip8.Machine.Report
import Chip8.Machine.Step
import Chip8.Main
import Chip8.Memory.Basic
import Chip8.Memory.Font
import Chip8.Memory.Hexdump
import Chip8.Memory.Region
import Chip8.Monitor
import Chip8.Processor.Basic
import Chip8.Processor.Execute
import Chip8.Processor.Machine
import Chip8.Processor.Operation
import Chip8.Processor.Step
import Chip8.Proofs.Codec
import Chip8.Proofs.CommandLine.HexWord
import Chip8.Proofs.Drawing
import Chip8.Proofs.Form
import Chip8.Proofs.Host.Accounting
import Chip8.Proofs.Host.Frame
import Chip8.Proofs.Host.Protocol
import Chip8.Proofs.Keypad
import Chip8.Proofs.Keypad.History
import Chip8.Proofs.Listing
import Chip8.Proofs.Listing.Assembly
import Chip8.Proofs.Listing.Colours
import Chip8.Proofs.Machine.Agreement
import Chip8.Proofs.Machine.Arithmetic
import Chip8.Proofs.Machine.Breakpoints
import Chip8.Proofs.Machine.CallStack
import Chip8.Proofs.Machine.ControlFlow
import Chip8.Proofs.Machine.Debugger
import Chip8.Proofs.Machine.Effects
import Chip8.Proofs.Machine.Execution
import Chip8.Proofs.Machine.Flags
import Chip8.Proofs.Machine.Interleaving
import Chip8.Proofs.Machine.Invariant
import Chip8.Proofs.Machine.KeyWait
import Chip8.Proofs.Machine.Loading
import Chip8.Proofs.Machine.Operation
import Chip8.Proofs.Machine.Outcome
import Chip8.Proofs.Machine.Randomness
import Chip8.Proofs.Machine.Restart
import Chip8.Proofs.Machine.Stopping
import Chip8.Proofs.Machine.Tick
import Chip8.Proofs.Machine.Transfer
import Chip8.Proofs.Memory
import Chip8.Proofs.Memory.Hexdump
import Chip8.Proofs.Memory.Wrapping
import Chip8.Proofs.Picture
import Chip8.Proofs.Processor.Addresses
import Chip8.Proofs.Processor.Execution
import Chip8.Proofs.Processor.Failure
import Chip8.Proofs.Processor.Invariant
import Chip8.Proofs.Processor.Refinement
import Chip8.Proofs.Processor.Tick
import Chip8.Proofs.Screen
import Chip8.Proofs.Sprite
import Chip8.Proofs.Text.Numeral
import Chip8.Proofs.Text.Terminal
import Chip8.Proofs.Views
import Chip8.Proofs.Window.Binding
import Chip8.Proofs.Window.Mirror
import Chip8.Random.ChaCha
import Chip8.Random.Keystream
import Chip8.Registers
import Chip8.Screen.Basic
import Chip8.Screen.Braille
import Chip8.Screen.Picture
import Chip8.Screen.Sprite
import Chip8.Text.Digits
import Chip8.Text.Escape.Extending
import Chip8.Text.Escape.Quoted
import Chip8.Text.Escape.Unprintable
import Chip8.Text.Numeral
import Chip8.Text.Record
import Chip8.Text.Style
import Chip8.Timers
import Chip8.Window.Basic
import Chip8.Window.FrameBuffer
import Chip8.Window.Viewer
import Chip8.Word
