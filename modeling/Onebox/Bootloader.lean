import Onebox.Machine

/-! Firmware loading through the secondary bootloader: `load_fw_thru_sbl` with
`bl_write_cmd` and `auto_fw_upgrade`. Each step takes one answer from outside: a
look at the timer, a register access, or the result of a host operation. -/

namespace Onebox

inductive FwLoadMode
  | fullFlashSbl | fullRamSbl | flashRamSbl | flashRamNoSbl
  deriving DecidableEq, Repr

inductive DriverMode
  | wifiModeOn | rfEvalModeOn | rfEvalLpbkCalib | rfEvalLpbk | qspiFlashing | qspiUpdate | snifferMode
  deriving DecidableEq, Repr

inductive FlashingMode
  | swblFlashingNosbl | swblFlashingSbl | swblFlashingNosblFile
  deriving DecidableEq, Repr

structure BootConfig where
  fwLoadMode : FwLoadMode
  driverMode : DriverMode
  flashingMode : FlashingMode
  deriving DecidableEq, Repr

def BootConfig.flashesSbl (c : BootConfig) : Bool :=
  c.driverMode = .qspiFlashing && c.flashingMode = .swblFlashingSbl

inductive BlCmd
  | configAutoReadMode | checkCrc | loadHostedFw | pollingMode | jumpToZeroPc
  | burnHostedFw | burnBl | pingValid | pongValid | eofReached
  deriving DecidableEq, Repr

def cmdPass : Nat := 0xAA
def cmdFail : Nat := 0xCC
def sendRpsFile : Nat := '2'.toNat
def pingAvail : Nat := 'I'.toNat
def pongAvail : Nat := 'O'.toNat
def fwLoadingSuccessful : Nat := 'S'.toNat
def loadingInitiated : Nat := '1'.toNat
def reginValid : Nat := 0xA
def regoutValid : Nat := 0xAB

inductive Upgrade
  | hostedFw | bootloader
  deriving DecidableEq, Repr

inductive Exchange
  | configAutoRead
  | checkCrc
  | loadImage
  | pollingMode
  | jumpToZero
  | fwUpgrade
  | burnBootloader
  | pingPong (u : Upgrade) (kk : Nat)
  | eofReached (u : Upgrade)
  | autoReadMode
  deriving DecidableEq, Repr

def Exchange.cmd : Exchange → BlCmd
  | .configAutoRead | .autoReadMode => .configAutoReadMode
  | .checkCrc => .checkCrc
  | .loadImage => .loadHostedFw
  | .pollingMode => .pollingMode
  | .jumpToZero => .jumpToZeroPc
  | .fwUpgrade => .burnHostedFw
  | .burnBootloader => .burnBl
  -- the first chunk goes to the pong buffer
  | .pingPong _ kk => if kk % 2 = 1 then .pingValid else .pongValid
  | .eofReached _ => .eofReached

def Exchange.expResp : Exchange → Nat
  | .configAutoRead | .autoReadMode | .checkCrc | .pollingMode | .jumpToZero => cmdPass
  | .loadImage => loadingInitiated
  | .fwUpgrade | .burnBootloader => sendRpsFile
  | .pingPong _ kk => if kk % 2 = 1 then pongAvail else pingAvail
  | .eofReached _ => fwLoadingSuccessful

/-- Where `bl_write_cmd` stands. The timer is looked at before each read of a
register and once more after the loop. -/
inductive BlPhase
  | reginLoop | reginRead | reginDone | reginWrite
  | regoutLoop | regoutRead | regoutDone (v : Nat) | regoutWrite (v : Nat)
  deriving DecidableEq, Repr

structure FwImage where
  contentSize : Nat
  flashStartAddress : Nat
  deriving DecidableEq, Repr

inductive BootPc
  | exchange (e : Exchange) (ph : BlPhase)
  | readFlashCapacity
  | rpsImageHeader
  | writeBlHeader
  | loadPmemdata
  | readCalibData
  | swblFile
  | chunk (u : Upgrade) (kk : Nat)
  | verifyCalib
  | verifySbl
  | success
  | fail
  deriving DecidableEq, Repr

inductive BootEvent
  | issued (c : BlCmd)
  | answered (c : BlCmd) (resp : Nat)
  | upgraded
  deriving DecidableEq, Repr

/-- `regoutVal` is the variable that `CHECK_CRC` passes to `bl_write_cmd`; the log is newest first. -/
structure Boot where
  cfg : BootConfig
  pc : BootPc
  regoutVal : Nat
  flashCapacity : Nat
  image : FwImage
  log : List BootEvent
  deriving DecidableEq, Repr

/-- One answer from outside: whether the timer has expired, the value of a
register or a bus error, and whether a write or another host operation succeeds. -/
inductive BootAct
  | timer (expired : Bool)
  | reg (v : Option Nat)
  | done (ok : Bool)
  | file (image : Option FwImage)
  deriving DecidableEq, Repr

def lowByte (v : Nat) : Nat := v % 256

namespace Boot

variable (b : Boot)

def goto (pc : BootPc) : Boot := { b with pc }

def note (e : BootEvent) : Boot := { b with log := e :: b.log }

def issue (e : Exchange) : Boot := b.goto (.exchange e .reginLoop)

def upgradeAllowed : Bool :=
  b.image.contentSize ≤ 400 * 1024 &&
  (if b.cfg.flashesSbl then 4 * 1024 else 68 * 1024) ≤ b.image.flashStartAddress &&
  b.image.flashStartAddress % (4 * 1024) = 0 &&
  -- the sum is a `uint32`
  (b.image.flashStartAddress + b.image.contentSize) % 2 ^ 32 ≤ b.flashCapacity

def upgradeFailed : Upgrade → Boot
  | .hostedFw => b.issue .autoReadMode
  | .bootloader => b.goto .fail

def upgradeDone : Upgrade → Boot
  | .hostedFw => b.issue .loadImage
  | .bootloader => b.issue .autoReadMode

def nextChunk (u : Upgrade) (kk : Nat) : Boot :=
  let numFlash := b.image.contentSize / 4096
  if kk < numFlash ∨ (kk = numFlash ∧ b.image.contentSize % 4096 ≠ 0) then b.goto (.chunk u kk)
  else b.issue (.eofReached u)

def autoFwUpgrade (u : Upgrade) : Boot :=
  if b.upgradeAllowed then b.nextChunk u 0 else b.upgradeFailed u

def afterExchange (ok : Bool) : Exchange → Boot
  -- only a response `CMD_FAIL` leads to the upgrade, every other failure goes on as a pass does
  | .checkCrc =>
    if !ok && lowByte b.regoutVal = cmdFail then b.issue .fwUpgrade
    else if b.cfg.fwLoadMode = .flashRamSbl ∨ b.cfg.fwLoadMode = .fullFlashSbl then b.issue .pollingMode
    else b.goto .fail
  | .pingPong u kk => if ok then b.nextChunk u (kk + 1) else b.upgradeFailed u
  | .eofReached u => if ok then (b.note .upgraded).upgradeDone u else b.upgradeFailed u
  | .configAutoRead => b.goto (if ok then .readFlashCapacity else .fail)
  | .loadImage => b.goto (if ok then .success else .fail)
  | .jumpToZero => b.goto (if ok then .success else .fail)
  | .pollingMode =>
    if ok then if b.cfg.fwLoadMode = .fullFlashSbl then b.issue .loadImage else b.goto .loadPmemdata
    else b.goto .fail
  | .fwUpgrade => if ok then b.autoFwUpgrade .hostedFw else b.goto .fail
  | .burnBootloader => b.goto (if ok then .swblFile else .fail)
  | .autoReadMode => b.goto (if ok ∧ b.cfg.flashesSbl then .verifyCalib else .fail)

def setCmdResp (e : Exchange) (v : Nat) : Boot :=
  if e = .checkCrc then { b with regoutVal := v % 2 ^ 16 } else b

def blWriteCmd (e : Exchange) : BlPhase → BootAct → Option Boot
  | .reginLoop, .timer expired =>
    some (if expired then b.afterExchange false e else b.goto (.exchange e .reginRead))
  | .reginRead, .reg none => some (b.afterExchange false e)
  | .reginRead, .reg (some v) =>
    some (b.goto (.exchange e (if v / 2 ^ 12 ≠ reginValid then .reginDone else .reginLoop)))
  | .reginDone, .timer expired =>
    some (if expired then b.afterExchange false e else b.goto (.exchange e .reginWrite))
  | .reginWrite, .done false => some (b.afterExchange false e)
  | .reginWrite, .done true =>
    -- the two commands that start the firmware expect no response
    let b := b.note (.issued e.cmd)
    some (if e.cmd = .loadHostedFw ∨ e.cmd = .jumpToZeroPc then b.afterExchange true e
      else b.goto (.exchange e .regoutLoop))
  | .regoutLoop, .timer expired =>
    some (if expired then b.afterExchange false e else b.goto (.exchange e .regoutRead))
  | .regoutRead, .reg none => some (b.afterExchange false e)
  | .regoutRead, .reg (some v) =>
    some (if v / 2 ^ 8 = regoutValid then
        (b.note (.answered e.cmd (lowByte v))).goto (.exchange e (.regoutDone v))
      else b.goto (.exchange e .regoutLoop))
  | .regoutDone v, .timer expired =>
    some (if expired then b.afterExchange false e
      else (b.setCmdResp e v).goto (.exchange e (.regoutWrite v)))
  | .regoutWrite v, .done ok => some (b.afterExchange (ok && lowByte v = e.expResp) e)
  | _, _ => none

def selectPath : Boot :=
  if b.cfg.flashesSbl then b.goto .readCalibData
  else match b.cfg.fwLoadMode with
    | .fullFlashSbl | .flashRamSbl => b.goto .rpsImageHeader
    | .fullRamSbl => b.issue .pollingMode
    | .flashRamNoSbl => b.goto .fail

def step : BootAct → Option Boot := fun a =>
  match b.pc, a with
  | .exchange e ph, a => b.blWriteCmd e ph a
  | .readFlashCapacity, .reg v =>
    let flashCapacity := v.getD 0 * 1024 % 2 ^ 32
    some (if flashCapacity = 0 then b.goto .fail else { b with flashCapacity }.selectPath)
  | .rpsImageHeader, .file none => some (b.goto .fail)
  | .rpsImageHeader, .file (some image) => some { b with image, pc := .writeBlHeader }
  | .writeBlHeader, .done ok => some (if ok then b.issue .checkCrc else b.goto .fail)
  | .loadPmemdata, .done ok => some (if ok then b.issue .jumpToZero else b.goto .fail)
  | .readCalibData, .done ok => some (if ok then b.issue .burnBootloader else b.goto .fail)
  | .swblFile, .file none => some (b.goto .fail)
  | .swblFile, .file (some image) => some ({ b with image }.autoFwUpgrade .bootloader)
  | .chunk u kk, .done ok => some (if ok then b.issue (.pingPong u kk) else b.upgradeFailed u)
  | .verifyCalib, .done ok => some (b.goto (if ok then .verifySbl else .fail))
  | .verifySbl, .done ok => some (b.goto (if ok then .success else .fail))
  | _, _ => none

end Boot

def loadFwThruSbl (cfg : BootConfig) : Boot :=
  { cfg, pc := .exchange .configAutoRead .reginLoop, regoutVal := 0, flashCapacity := 0,
    image := { contentSize := 0, flashStartAddress := 0 }, log := [] }

end Onebox
