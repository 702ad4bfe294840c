import RetroCpu.Lib.JsNumber
import RetroCpu.Lib.BitField
import RetroCpu.Lib.StateProg
import RetroCpu.Lib.StepRuns
import RetroCpu.Mn1613.Memory
import RetroCpu.EmuTs.Mn1613
import RetroCpu.EmuTs.Mn1613Float
import RetroCpu.EmuTs.Mn1613Exec
import RetroCpu.EmuTs.Mn1613Effect
import RetroCpu.EmuTs.Mn1613Board
import RetroCpu.EmuRs.Mn1613
import RetroCpu.EmuRs.Mn1613Exec
import RetroCpu.Mn1613.WordOps
import RetroCpu.Mn1613.Simulation
import RetroCpu.Mn1613.StepEquiv
import RetroCpu.Mn1613.SkipLength
import RetroCpu.EmuTs.Mn1613Run
import RetroCpu.EmuTs.Mn1613Invariant
import RetroCpu.EmuTs.Mn1613Irq
import RetroCpu.DisAssembler.Mn1613
import RetroCpu.EmuTs.Mn1613Nesting
import RetroCpu.Mn1613.DecodeLength
import RetroCpu.AsmTs.Expression
import RetroCpu.AsmTs.Mn1613Operand
import RetroCpu.AsmTs.Mn1613Encoder
import RetroCpu.Lib.Checked
import RetroCpu.AsmTs.AreaOrder
import RetroCpu.AsmTs.Reloc
import RetroCpu.AsmTs.Assembler
import RetroCpu.Lib.HexText
import RetroCpu.AsmTs.RelWriter
import RetroCpu.AsmRs.Assembler
import RetroCpu.AsmRs.RelWriter
import RetroCpu.AsmTs.Pass2Steps
import RetroCpu.AsmTs.Extents
import RetroCpu.Asm.AreaSize
import RetroCpu.AsmTs.RelChunks
import RetroCpu.AsmTs.SdldLink
import RetroCpu.AsmTs.RelReader
import RetroCpu.AsmTs.RelReading
import RetroCpu.AsmTs.RelRoundTrip
import RetroCpu.AsmTs.SourceLines
import RetroCpu.EmuRs.Tms9995
import RetroCpu.EmuRs.Tms9995Exec
import RetroCpu.EmuRs.Tms9995Ends
import RetroCpu.EmuRs.Tms9995Runs
import RetroCpu.EmuRs.Mn1613Checked
import RetroCpu.EmuRs.Mn1613Ends
import RetroCpu.EmuRs.OneInstruction
import RetroCpu.Mn1613.MemoryGroup
import RetroCpu.AsmTs.Tms9995Encoder
import RetroCpu.AsmRs.Mn1613Encoder
import RetroCpu.AsmRs.Tms9995Encoder
import RetroCpu.AsmTs.RelativeOperand
import RetroCpu.AsmRs.RelativeOperand
import RetroCpu.Asm.RelativeOperand
import RetroCpu.DisAssembler.Tms9995
import RetroCpu.Disasm.Mn1613
import RetroCpu.AsmRs.NumberText
import RetroCpu.Tms9995.PrintedOperand
import RetroCpu.Tms9995.DecodeEncode
import RetroCpu.AsmRs.LineParser
import RetroCpu.Tms9995.EncodeDecode
import RetroCpu.Asm.RelativeAddress
import RetroCpu.AsmTs.EquValues
import RetroCpu.EmuTs.BoardLink
import RetroCpu.EmuTs.DebugFrames
import RetroCpu.EmuTs.DebugHost
import RetroCpu.EmuTs.Handshake
import RetroCpu.BootMonitor.Mn1613
import RetroCpu.BootMonitor.Breakpoint
import RetroCpu.BootMonitor.Tms9995
import RetroCpu.Handshake.Sessions
import RetroCpu.Handshake.Monitor
import RetroCpu.Handshake.Mn1613Steps
import RetroCpu.Handshake.Tms9995Steps
import RetroCpu.Handshake.IoSteps
import RetroCpu.Handshake.Units
import RetroCpu.Handshake.Turns
import RetroCpu.Handshake.Lossless
import RetroCpu.EmuTs.HshkAgent
import RetroCpu.EmuTs.IntelHex
import RetroCpu.EmuTs.InterruptCauses
import RetroCpu.EmuTs.IoPorts
import RetroCpu.EmuTs.IoTimer
import RetroCpu.EmuTs.CpuDma
import RetroCpu.EmuTs.AddrComparator
import RetroCpu.EmuRs.AddrComparator
import RetroCpu.Mn1613.AddrComparator
import RetroCpu.Lib.Countdown
import RetroCpu.Mn1613.StepBreak
import RetroCpu.EmuTs.CruMirror
import RetroCpu.EmuTs.AgentDeadlock
import RetroCpu.EmuTs.DmaLoad
import RetroCpu.EmuRs.IntelHex
import RetroCpu.IntelHex.Format
import RetroCpu.IntelHex.Lines
import RetroCpu.IntelHex.Plans
import RetroCpu.IntelHex.Agreement
import RetroCpu.IntelHex.Written
import RetroCpu.Lib.Untimed
import RetroCpu.EmuTs.CpuToIo
import RetroCpu.Handshake.Framed
import RetroCpu.Handshake.Commands
import RetroCpu.Handshake.Agreement
import RetroCpu.AsmTs.NumberText
import RetroCpu.AsmTs.Parser
import RetroCpu.AsmTs.PrintedLine
import RetroCpu.DisAssembler.Mn1613Format
import RetroCpu.Lib.Carry
import RetroCpu.EmuTs.Mn1613Flags
import RetroCpu.Mn1613.Operands
import RetroCpu.Mn1613.Arithmetic
import RetroCpu.Mn1613.MultiPrecision
import RetroCpu.Mn1613.Decimal
import RetroCpu.Mn1613.MulDiv
import RetroCpu.Mn1613.Compare
import RetroCpu.Lib.ForwardCopy
import RetroCpu.Mn1613.BlockMove
import RetroCpu.Disasm.Agreement
import RetroCpu.AsmTs.SdldRuns
import RetroCpu.Framework.SdldLink
import RetroCpu.Asm.LinkLayout
import RetroCpu.Lib.Trimming
import RetroCpu.EmuRs.Tms9995Carry
import RetroCpu.EmuRs.Tms9995Compare
import RetroCpu.EmuRs.Tms9995Shift
import RetroCpu.AsmTs.SdldHex
import RetroCpu.Mn1613.AddImmediate
import RetroCpu.Mn1613.StackDiscipline
import RetroCpu.EmuTs.Tms9995
import RetroCpu.EmuTs.Tms9995Exec
import RetroCpu.EmuTs.Tms9995Cpu
import RetroCpu.EmuRs.Tms9995Divide
import RetroCpu.EmuRs.RunSlices
import RetroCpu.EmuRs.DmaBytes
import RetroCpu.EmuRs.LcdDisplay
import RetroCpu.EmuTs.IoConsole
import RetroCpu.DebugExpand.DebugIo
import RetroCpu.AsmTs.CheckpointLines
import RetroCpu.AsmTs.AreaCounters
import RetroCpu.BootMonitor.Mn1613Heap
import RetroCpu.BootMonitor.Tms9995Heap
import RetroCpu.BootMonitor.Mn1613Random
import RetroCpu.Framework.MSequence
import RetroCpu.BootMonitor.Mn1613Bytes
import RetroCpu.Lib.Calls
import RetroCpu.BootMonitor.Mn1613HeapCode
import RetroCpu.AsmTs.Include
import RetroCpu.AsmRs.Include
import RetroCpu.Asm.Include
