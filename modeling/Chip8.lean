import Chip8.Instruction.Mnemonic
import Chip8.Keyboard
import Chip8.Machine.Script
import Chip8.Main
import Chip8.Window
import Chip8.Proofs.Cpu.Calls
import Chip8.Proofs.Cpu.Obstacles
import Chip8.Proofs.Cpu.Refusal
import Chip8.Proofs.Cpu.Timing
import Chip8.Proofs.Machine.Shown
import Chip8.Proofs.Memory.Stores
import Chip8.Proofs.Cpu.RandomBytes
import Chip8.Proofs.Machine.Waiting
import Chip8.Proofs.Machine.Requests
import Chip8.Proofs.Machine.Resume
import Chip8.Proofs.Cpu.Arithmetic
import Chip8.Proofs.Screen.Sprite
import Chip8.Proofs.Cpu.Inputs
import Chip8.Proofs.Memory.SavedRegisters
import Chip8.Proofs.Cpu.Redrawing
import Chip8.Proofs.Screen.Drawings
import Chip8.Proofs.Memory.Loading
import Chip8.Proofs.Cpu.FaultAddress
import Chip8.Proofs.Screen.Bitmap
import Chip8.Proofs.Machine.SameKeys
import Chip8.Proofs.Instruction.Naming
