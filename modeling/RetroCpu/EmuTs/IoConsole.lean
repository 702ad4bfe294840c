import RetroCpu.Lib.AwaitTasks
import RetroCpu.Lib.JsNumber

/-!
# The keys of the front panel

`io_console.ts`: a hex key changes the address or the data at once, a function key first reads
the setting area and then asks the CPU board, and all of this is a task of the event loop.
The worker starts the task of a key without waiting for the one before.

The bridge to the CPU board and the setting area answers or refuses a request and changes a
world of its own, of which nothing is assumed here.
-/

namespace RetroCpu
namespace EmuTs
namespace HexKeyboard

open Await (Task Loop Event Waiting Asks Blind HarmlessTo EveryWait LetsInHarmless InTurn
  alone finish inOrder keysOf recording)
open StepRuns (after Always)

inductive ConsoleFocus
  | addr
  | data
deriving DecidableEq

inductive ConsoleMode
  | monitor
  | setting_area
deriving DecidableEq

inductive ConsoleFnKey
  | F0 | F1 | F2 | F3 | F4 | F5 | F6 | F7
deriving DecidableEq

/-- The fields of the panel, and the latch of the UNDEF lamp that a reset puts out. -/
structure IoConsole where
  wordAddr : Int
  dataWord : Int
  focus : ConsoleFocus
  mode : ConsoleMode
  halted : Bool
  addrStep : Int
  addrDigits : Int
  dataDigits : Int
  undefLed : Bool
deriving DecidableEq

/-- `ConsoleCpuBridge`; what a request has no answer for is answered 0. -/
inductive ConsoleCpuBridge
  | memReadWord (wordAddr : Int)
  | memWriteWord (wordAddr word : Int)
  | readSettingByte (byteAddr : Int)
  | writeSettingByte (byteAddr value : Int)
  | exec (wordAddr : Int)
  | setHalt (halt : Bool)
  | pulseReset
deriving DecidableEq

namespace OFFSETS

def CPU_TYPE : Int := 0x03
def ADDR_STEP : Int := 0x05
def SEVEN_SEG_ADDR_DIGITS : Int := 0x0a
def SEVEN_SEG_DATA_DIGITS : Int := 0x0b

end OFFSETS

def ADDR_STEP_1 : Int := 1
def ADDR_STEP_2 : Int := 2

def normalizeAddrStep (value : Int) : Int :=
  if Js.land value 0xff = ADDR_STEP_2 then ADDR_STEP_2 else ADDR_STEP_1

def alignAddrToStep (addr step : Int) : Int :=
  let a := Js.ushr addr 0
  if normalizeAddrStep step = ADDR_STEP_2 ∧ Js.land a 1 = 1 then Js.ushr (a - 1) 0 else a

/-- `defaultSettingsForCpu(cpuType).sevenSegAddrDigits` -/
def sevenSegAddrDigits (cpuType : Int) : Int :=
  if cpuType = 2 ∨ cpuType = 3 then 0x04 else if cpuType = 4 then 0x06 else 0x05

/-- `defaultSettingsForCpu(cpuType).sevenSegDataDigits` -/
def sevenSegDataDigits : Int := 0x04

namespace IoConsole

/-- A panel as it is made. -/
def init : IoConsole where
  wordAddr := 0
  dataWord := 0
  focus := .addr
  mode := .monitor
  halted := true
  addrStep := 1
  addrDigits := sevenSegAddrDigits 1
  dataDigits := 4
  undefLed := false

variable (p : IoConsole)

def addrDelta : Int :=
  if p.mode = .setting_area then 1 else p.addrStep

def addAddr (delta : Int) : Int :=
  if p.mode = .setting_area then Js.land (p.wordAddr + delta) 0xff
  else Js.ushr (p.wordAddr + delta) 0

def alignMonitorAddr : IoConsole :=
  if p.mode ≠ .monitor then p else { p with wordAddr := alignAddrToStep p.wordAddr p.addrStep }

/-- `onHex`, of the number that the digit stands for. -/
def onHex (n : Int) : IoConsole :=
  if p.focus = .addr then
    if p.mode = .setting_area then
      { p with wordAddr := Js.land (Js.lor (Js.shl p.wordAddr 4) (Js.land n 0xf)) 0xff }
    else { p with wordAddr := Js.ushr (Js.lor (Js.shl p.wordAddr 4) (Js.land n 0xf)) 0 }
  else
    if p.mode = .setting_area then
      { p with dataWord := Js.land (Js.lor (Js.shl p.dataWord 4) (Js.land n 0xf)) 0xff }
    else { p with dataWord := Js.land (Js.lor (Js.shl p.dataWord 4) (Js.land n 0xf)) 0xffff }

end IoConsole

/-- A task of the panel. -/
abbrev PanelTask := Task IoConsole ConsoleCpuBridge Int

def readSettingByte (byteAddr : Int) : PanelTask Int := .await (.readSettingByte byteAddr)

def syncFromSettings : PanelTask Unit := do
  let cpuType ← readSettingByte OFFSETS.CPU_TYPE
  let addrStep ← readSettingByte OFFSETS.ADDR_STEP
  .modify fun p => { p with addrStep := normalizeAddrStep addrStep }
  let addrDigits ← readSettingByte OFFSETS.SEVEN_SEG_ADDR_DIGITS
  let dataDigits ← readSettingByte OFFSETS.SEVEN_SEG_DATA_DIGITS
  .modify fun p =>
    { p with
      addrDigits :=
        if addrDigits ≥ 1 ∧ addrDigits ≤ 8 then addrDigits else sevenSegAddrDigits cpuType
      dataDigits :=
        if dataDigits ≥ 1 ∧ dataDigits ≤ 4 then dataDigits else sevenSegDataDigits }

/-- `readAt(this.wordAddr)`: the mode is looked at before the wait. -/
def readAt : PanelTask Unit := do
  let p ← .get
  if p.mode = .setting_area then
    let byte ← .await (.readSettingByte (Js.land p.wordAddr 0xff))
    .modify fun p => { p with dataWord := Js.land byte 0xff }
  else
    let word ← .await (.memReadWord p.wordAddr)
    .modify fun p => { p with dataWord := Js.land word 0xffff }

def notifyCpuReset : PanelTask Unit := do
  syncFromSettings
  .modify fun p =>
    { p with
      wordAddr := 0, dataWord := 0, focus := .addr, mode := .monitor, undefLed := false,
      halted := true }

def onAdsLongPress : PanelTask Unit := do
  let before ← .get
  .modify fun p =>
    { p with
      mode := if p.mode = .monitor then .setting_area else .monitor
      focus := .addr, wordAddr := 0, dataWord := 0 }
  if before.mode = .setting_area then
    syncFromSettings

/-- INC and DEC -/
def moveAndRead (sign : Int) : PanelTask Unit := do
  .modify IoConsole.alignMonitorAddr
  .modify fun p => { p with wordAddr := p.addAddr (sign * p.addrDelta) }
  readAt
  .modify fun p => { p with focus := .data }

def writeHere : PanelTask Int := do
  let p ← .get
  if p.mode = .setting_area then
    .await (.writeSettingByte (Js.land p.wordAddr 0xff) (Js.land p.dataWord 0xff))
  else .await (.memWriteWord p.wordAddr p.dataWord)

def ads : PanelTask Unit := do
  .modify fun p => { p with focus := if p.focus = .addr then .data else .addr }
  let p ← .get
  if p.focus = .data then
    .modify IoConsole.alignMonitorAddr
    readAt

def clr : PanelTask Unit :=
  .modify fun p => if p.focus = .addr then { p with wordAddr := 0 } else { p with dataWord := 0 }

def winc : PanelTask Unit := do
  .modify IoConsole.alignMonitorAddr
  let _ ← writeHere
  .modify fun p => { p with wordAddr := p.addAddr p.addrDelta }
  readAt
  .modify fun p => { p with focus := .data }

def run : PanelTask Unit := do
  .modify IoConsole.alignMonitorAddr
  let p ← .get
  let _ ← .await (.exec p.wordAddr)
  .modify fun p => { p with halted := false }

def hst : PanelTask Unit := do
  let p ← .get
  if p.halted then
    let _ ← .await (.setHalt false)
    .modify fun p => { p with halted := false }
  else
    let _ ← .await (.setHalt true)
    .modify fun p => { p with halted := true }

def rst : PanelTask Unit := do
  let _ ← .await .pulseReset
  notifyCpuReset

def onFunction (fn : ConsoleFnKey) : PanelTask Unit := do
  syncFromSettings
  match fn with
  | .F0 => ads
  | .F1 => clr
  | .F2 => moveAndRead 1
  | .F3 => moveAndRead (-1)
  | .F4 => winc
  | .F5 => run
  | .F6 => hst
  | .F7 => rst

/-- What the panel is told. -/
inductive Key
  | hex (n : Int)
  | fn (key : ConsoleFnKey)
  | adsLong
deriving DecidableEq

/-- The task of a key. -/
def Key.task : Key → PanelTask Unit
  | .hex n => .modify (·.onHex n)
  | .fn key => onFunction key
  | .adsLong => onAdsLongPress

section InTurn

variable {W : Type} {p : IoConsole} {key : Key}

/-- Keys that do all they do at once: the digits, and a long press that goes into the setting
area. -/
inductive AtOnce (p : IoConsole) : Key → Prop
  | hex (n : Int) : AtOnce p (.hex n)
  | adsLong (h : p.mode = .monitor) : AtOnce p .adsLong

/-- The keys that a waiting one lets in: H/ST, the end of a long press and RUN that waits for
the CPU let in what is done at once, and all of RUN lets in a digit of the data. -/
inductive LetsIn : Waiting Key IoConsole ConsoleCpuBridge Int → Key → IoConsole → Prop
  | hst {request : ConsoleCpuBridge} {resume : Int → PanelTask Unit} {key : Key} {p : IoConsole}
      (h : AtOnce p key) : LetsIn ⟨.fn .F6, request, resume⟩ key p
  | adsLong {request : ConsoleCpuBridge} {resume : Int → PanelTask Unit} {key : Key}
      {p : IoConsole} (h : AtOnce p key) : LetsIn ⟨.adsLong, request, resume⟩ key p
  | exec {wordAddr : Int} {resume : Int → PanelTask Unit} {key : Key} {p : IoConsole}
      (h : AtOnce p key) : LetsIn ⟨.fn .F5, .exec wordAddr, resume⟩ key p
  | run {request : ConsoleCpuBridge} {resume : Int → PanelTask Unit} {n : Int} {p : IoConsole}
      (h : p.focus = .data) : LetsIn ⟨.fn .F5, request, resume⟩ (.hex n) p

/-- A long press in the monitor. -/
def enterSettingArea (p : IoConsole) : IoConsole :=
  { p with mode := .setting_area, focus := .addr, wordAddr := 0, dataWord := 0 }

/-- A change of the panel that neither sees nor touches the settings and the lamps. -/
structure Quiet (P : IoConsole → Prop) (f : IoConsole → IoConsole) : Prop where
  step : ∀ p addrStep, P p →
    { f p with addrStep } = f { p with addrStep } ∧ P { p with addrStep }
  digits : ∀ p addrDigits dataDigits, P p →
    { f p with addrDigits, dataDigits } = f { p with addrDigits, dataDigits } ∧
      P { p with addrDigits, dataDigits }
  lamp : ∀ p halted, P p → { f p with halted } = f { p with halted } ∧ P { p with halted }
  halted : ∀ p, P p → (f p).halted = p.halted

theorem onHex_eq (p : IoConsole) (n : Int) :
    p.onHex n =
      { p with wordAddr := (p.onHex n).wordAddr, dataWord := (p.onHex n).dataWord } := by
  unfold IoConsole.onHex
  split_ifs <;> rfl

/-- A digit is quiet, and so it is where nothing but the focus is known. -/
theorem quiet_onHex {P : IoConsole → Prop} (n : Int)
    (hP : ∀ p q : IoConsole, q.focus = p.focus → P p → P q) : Quiet P (·.onHex n) := by
  refine ⟨?_, ?_, ?_, ?_⟩
  · intro p addrStep hp
    refine ⟨?_, hP p _ rfl hp⟩
    simp only [IoConsole.onHex]
    split_ifs <;> rfl
  · intro p addrDigits dataDigits hp
    refine ⟨?_, hP p _ rfl hp⟩
    simp only [IoConsole.onHex]
    split_ifs <;> rfl
  · intro p halted hp
    refine ⟨?_, hP p _ rfl hp⟩
    simp only [IoConsole.onHex]
    split_ifs <;> rfl
  · intro p _
    rw [onHex_eq]

theorem quiet_enter : Quiet (fun p => p.mode = .monitor) enterSettingArea :=
  ⟨fun _ _ h => ⟨rfl, h⟩, fun _ _ _ h => ⟨rfl, h⟩, fun _ _ h => ⟨rfl, h⟩, fun _ _ => rfl⟩

section Blindness

variable {P : IoConsole → Prop} {f : IoConsole → IoConsole} {t : PanelTask Unit}

theorem blind_sync (h : Quiet P f) (ht : Blind P f t) :
    Blind P f (syncFromSettings >>= fun _ => t) :=
  fun _ _ => ⟨fun p hp => h.step p _ hp, fun _ _ => ⟨fun p hp => h.digits p _ _ hp, ht⟩⟩

theorem blind_lamp (h : Quiet P f) (halted : Bool) :
    Blind P f (.modify fun p => { p with halted } : PanelTask Unit) :=
  ⟨fun p hp => h.lamp p halted hp, trivial⟩

theorem hst_eq :
    hst = .read fun p => .wait (.setHalt (!p.halted)) fun _ =>
      .modify fun q => { q with halted := !p.halted } := by
  have hread : hst = .read fun p =>
      if p.halted = true then
        .wait (.setHalt false) fun _ => .modify fun p => { p with halted := false }
      else .wait (.setHalt true) fun _ => .modify fun p => { p with halted := true } := rfl
  rw [hread]
  congr
  funext p
  cases p.halted <;> rfl

theorem blind_hst (h : Quiet P f) : Blind P f (onFunction .F6) := by
  apply blind_sync h
  change Blind P f hst
  rw [hst_eq]
  refine ⟨fun p hp => ?_, fun p _ => blind_lamp h _⟩
  dsimp only
  rw [h.halted p hp]

theorem blind_adsLong (h : Quiet P f) (p : IoConsole) :
    Blind P f (if p.mode = .setting_area then syncFromSettings else pure ()) := by
  split_ifs
  · exact blind_sync h trivial
  · trivial

/-- RUN looks at the address, which a digit of the data does not change. -/
theorem blind_run (n : Int) :
    Blind (fun p => p.focus = .data) (·.onHex n) (onFunction .F5) := by
  have hquiet : Quiet (fun p => p.focus = .data) (·.onHex n) :=
    quiet_onHex n fun p q hfocus hp => hfocus.trans hp
  have hdata : ∀ p : IoConsole, p.focus = .data → ¬ p.focus = .addr := by
    intro p hp haddr
    rw [hp] at haddr
    cases haddr
  apply blind_sync hquiet
  have hrun : run = .write IoConsole.alignMonitorAddr (.read fun p =>
    .wait (.exec p.wordAddr) fun _ => .modify fun p => { p with halted := false }) := rfl
  change Blind _ _ run
  rw [hrun]
  refine ⟨fun p hp => ?_, fun p hp => ?_, fun p _ => blind_lamp hquiet false⟩
  · have hnot := hdata p hp
    constructor
    · simp only [IoConsole.onHex, IoConsole.alignMonitorAddr, hnot, if_false]
      split_ifs <;> simp_all
    · unfold IoConsole.alignMonitorAddr
      split_ifs
      · exact hp
      · exact hp
  · have hsame : (p.onHex n).wordAddr = p.wordAddr := by
      unfold IoConsole.onHex
      rw [if_neg (hdata p hp)]
      split_ifs <;> rfl
    dsimp only
    rw [hsame]

end Blindness

section Harmless

variable {perform : ConsoleCpuBridge → W → Option Int × W}
variable {x : Waiting Key IoConsole ConsoleCpuBridge Int}

theorem not_setting (h : p.mode = .monitor) : ¬ p.mode = .setting_area := by
  rw [h]
  exact nofun

theorem alone_enter {s : IoConsole × W} (h : s.1.mode = .monitor) :
    alone perform Key.adsLong.task s = (enterSettingArea s.1, s.2) := by
  change alone perform (if s.1.mode = .setting_area then syncFromSettings else pure ())
    ({ s.1 with
        mode := if s.1.mode = .monitor then .setting_area else .monitor
        focus := .addr, wordAddr := 0, dataWord := 0 }, s.2) = _
  rw [if_neg (not_setting h), if_pos h]
  rfl

theorem harmless_digit {P : IoConsole → Prop} {n : Int}
    (hblind : ∀ answer, Blind P (·.onHex n) (x.resume answer)) (hp : P p) :
    HarmlessTo perform Key.task x (.hex n) p := by
  refine ⟨rfl, fun world => ?_⟩
  have hswap := (Blind.swap (t := .wait x.request x.resume) perform hblind (p, world) hp).2
  exact hswap

/-- What is blind to all quiet changes does not mind a key that is done at once. -/
theorem harmless_atOnce (h : AtOnce p key)
    (hblind : ∀ P f, Quiet P f → ∀ answer, Blind P f (x.resume answer)) :
    HarmlessTo perform Key.task x key p := by
  cases h with
  | hex n =>
      have hquiet : Quiet (fun _ => True) (·.onHex n) := quiet_onHex n fun _ _ _ _ => trivial
      exact harmless_digit (hblind _ _ hquiet) trivial
  | adsLong hmode =>
      refine ⟨?_, fun world => ?_⟩
      · change (Await.upToWait Key.adsLong
          (if p.mode = .setting_area then syncFromSettings else pure ()) _).2 = none
        rw [if_neg (not_setting hmode)]
        rfl
      · obtain ⟨hkept, hswap⟩ := Blind.swap (t := .wait x.request x.resume) perform
          (hblind _ _ quiet_enter) (p, world) hmode
        rw [Waiting.finish, Waiting.finish, alone_enter hmode, alone_enter hkept]
        exact hswap

theorem key_of_letsIn (h : LetsIn x key p) :
    x.key = .fn .F5 ∨ x.key = .fn .F6 ∨ x.key = .adsLong := by
  cases h with
  | hst h => exact .inr (.inl rfl)
  | adsLong h => exact .inr (.inr rfl)
  | exec h => exact .inl rfl
  | run h => exact .inl rfl

/-- The waits of a key that lets nothing in. -/
theorem everyWait_closed {t : PanelTask Unit} {key : Key}
    (h : ¬ (key = .fn .F5 ∨ key = .fn .F6 ∨ key = .adsLong)) :
    EveryWait (LetsInHarmless perform Key.task LetsIn) key t :=
  Await.everyWait_of_blind (C := fun _ _ => False) (fun _ _ h => h.elim)
    fun _ _ _ _ _ hlet => absurd (key_of_letsIn hlet) h

theorem everyWait_hst :
    EveryWait (LetsInHarmless perform Key.task LetsIn) (.fn .F6) (onFunction .F6) := by
  apply Await.everyWait_of_blind (C := Quiet) fun P f h => blind_hst h
  intro request resume hblind other p hlet
  cases hlet with
  | hst h => exact harmless_atOnce h hblind

theorem everyWait_adsLong :
    EveryWait (LetsInHarmless perform Key.task LetsIn) .adsLong onAdsLongPress := by
  intro before
  apply Await.everyWait_of_blind (C := Quiet) fun P f h => blind_adsLong h before
  intro request resume hblind other p hlet
  cases hlet with
  | adsLong h => exact harmless_atOnce h hblind

/-- The digits of the data. -/
inductive DataDigit : (IoConsole → Prop) → (IoConsole → IoConsole) → Prop
  | hex (n : Int) : DataDigit (fun p => p.focus = .data) (·.onHex n)

/-- All of RUN. -/
theorem everyWait_dataDigit :
    EveryWait (fun x => ∀ n p, p.focus = .data → HarmlessTo perform Key.task x (.hex n) p)
      (.fn .F5) (onFunction .F5) := by
  apply Await.everyWait_of_blind (C := DataDigit)
  · rintro P f ⟨n⟩
    exact blind_run n
  · intro request resume hblind n p hfocus
    exact harmless_digit (hblind _ _ (.hex n)) hfocus

/-- RUN when it asks the CPU. -/
theorem everyWait_exec :
    EveryWait (fun x => ∀ wordAddr, x.request = .exec wordAddr → ∀ key p, AtOnce p key →
      HarmlessTo perform Key.task x key p) (.fn .F5) (onFunction .F5) := by
  refine ⟨nofun, fun _ => ⟨nofun, fun _ => ⟨nofun, fun _ => ⟨nofun, fun _ p => ⟨?_, ?_⟩⟩⟩⟩⟩
  · intro wordAddr _ key q h
    exact harmless_atOnce h fun P f hquiet _ => blind_lamp hquiet false
  · exact fun _ => trivial

theorem everyWait_run :
    EveryWait (LetsInHarmless perform Key.task LetsIn) (.fn .F5) (onFunction .F5) := by
  apply everyWait_dataDigit.both everyWait_exec
  intro request resume hdigit hexec key p hlet
  cases hlet with
  | exec h => exact hexec _ rfl key p h
  | run h => exact hdigit _ p h

theorem everyWait_task (key : Key) :
    EveryWait (LetsInHarmless perform Key.task LetsIn) key key.task := by
  cases key with
  | hex n => trivial
  | adsLong => exact everyWait_adsLong
  | fn key =>
      cases key with
      | F5 => exact everyWait_run
      | F6 => exact everyWait_hst
      | _ => exact everyWait_closed (by decide)

end Harmless

end InTurn

section OneAtATime

variable {W : Type} {p : IoConsole}

/-- A write is one of the data shown, at the address shown and in the mode shown; where
addresses are even, the address is the even one. -/
def StoresShown (p : IoConsole) : ConsoleCpuBridge → Prop
  | .memWriteWord wordAddr word =>
      p.mode = .monitor ∧ (∃ step, wordAddr = alignAddrToStep p.wordAddr step) ∧
        word = p.dataWord
  | .writeSettingByte byteAddr value =>
      p.mode = .setting_area ∧ byteAddr = Js.land p.wordAddr 0xff ∧
        value = Js.land p.dataWord 0xff
  | _ => True

theorem asks_readAt (q : IoConsole) {t : Unit → PanelTask Unit}
    (ht : ∀ q, Asks (StoresShown p) (t ()) q) : Asks (StoresShown p) (readAt >>= t) q := by
  change Asks _ ((if q.mode = .setting_area then _ else _ : PanelTask Unit).bind t) q
  split_ifs
  · exact ⟨trivial, fun _ => ht _⟩
  · exact ⟨trivial, fun _ => ht _⟩

theorem asks_winc {q : IoConsole} (hmode : q.mode = p.mode) (haddr : q.wordAddr = p.wordAddr)
    (hdata : q.dataWord = p.dataWord) : Asks (StoresShown p) winc q := by
  have hwinc : winc = .write IoConsole.alignMonitorAddr (.read fun q =>
      (if q.mode = .setting_area then
        .await (.writeSettingByte (Js.land q.wordAddr 0xff) (Js.land q.dataWord 0xff))
      else .await (.memWriteWord q.wordAddr q.dataWord) : PanelTask Int).bind fun _ =>
        .write (fun p => { p with wordAddr := p.addAddr p.addrDelta })
          (readAt >>= fun _ => .modify fun p => { p with focus := .data })) := rfl
  have hread : ∀ q, Asks (StoresShown p)
      (readAt >>= fun _ => .modify fun p => { p with focus := .data }) q :=
    fun q => asks_readAt q fun _ => trivial
  have halign : q.alignMonitorAddr.mode = q.mode ∧ q.alignMonitorAddr.dataWord = q.dataWord := by
    unfold IoConsole.alignMonitorAddr
    split_ifs <;> exact ⟨rfl, rfl⟩
  rw [hwinc]
  change Asks _ (Await.Task.bind (if q.alignMonitorAddr.mode = .setting_area then _ else _) _) _
  rw [halign.1, hmode]
  cases hp : p.mode with
  | monitor =>
      rw [if_neg nofun]
      refine ⟨⟨hp, ⟨q.addrStep, ?_⟩, halign.2.trans hdata⟩, fun _ => hread _⟩
      rw [IoConsole.alignMonitorAddr, if_neg (not_not.mpr (hmode.trans hp)), haddr]
  | setting_area =>
      rw [if_pos rfl]
      refine ⟨⟨hp, ?_, ?_⟩, fun _ => hread _⟩
      · rw [IoConsole.alignMonitorAddr, if_pos (by rw [hmode, hp]; exact nofun), haddr]
      · rw [halign.2, hdata]

/-- What WINC asks for when nothing comes in between. -/
theorem asks_F4 (p : IoConsole) : Asks (StoresShown p) (onFunction .F4) p :=
  ⟨trivial, fun _ => ⟨trivial, fun _ => ⟨trivial, fun _ => ⟨trivial, fun _ =>
    asks_winc rfl rfl rfl⟩⟩⟩⟩

/-- A board whose memory is a list of writes, and an erased setting area. -/
def board (request : ConsoleCpuBridge) (memory : List (Int × Int)) :
    Option Int × List (Int × Int) :=
  match request with
  | .memReadWord wordAddr => (some ((memory.lookup wordAddr).getD 0), memory)
  | .memWriteWord wordAddr word => (some 0, (wordAddr, word) :: memory)
  | .readSettingByte _ => (some 0xff, memory)
  | _ => (some 0, memory)

/-- ADS, digit 1 and WINC; digit 2 comes while the CPU board writes. -/
def digitDuringWinc : List (Event Key) :=
  [.press (.fn .F0), .complete 0, .complete 0, .complete 0, .complete 0, .complete 0,
    .press (.hex 1), .press (.fn .F4), .complete 0, .complete 0, .complete 0, .complete 0,
    .press (.hex 2), .complete 0, .complete 0]

end OneAtATime

end HexKeyboard
end EmuTs
end RetroCpu
