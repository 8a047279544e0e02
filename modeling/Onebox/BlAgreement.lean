import Onebox.VerifiedBoot

/-! The driver and the bootloader at the two registers `SWBL_REGIN` and `SWBL_REGOUT`.
The bootloader takes a command when it likes and answers it when it likes; the
answer does not say to which command it belongs. -/

namespace Onebox

open Machine

/-- The commands written into the register are numbered. `regin` has the number of a command that is not
taken yet, `pending` those taken and not answered, and `regout` a valid response with the number of the
command it answers. `seen` is that number for the response read last, and `accepted` has a pair for each
response taken as the one to a command. -/
structure BlSys where
  boot : Boot
  issued : Nat
  regin : Option Nat
  pending : List Nat
  regout : Option (Nat × Nat)
  seen : Nat
  accepted : List (Nat × Nat)
  deriving DecidableEq, Repr

inductive BlAct
  | host (a : BootAct)
  | take
  | answer (n resp : Nat)
  deriving DecidableEq, Repr

namespace BlSys

variable (s : BlSys)

/-- What the driver reads is what the registers hold. -/
def admits (a : BootAct) : Bool :=
  match s.boot.pc, a with
  | .exchange _ .reginRead, .reg (some v) => decide (v / 2 ^ 12 = reginValid) = s.regin.isSome
  | .exchange _ .regoutRead, .reg (some v) =>
    match s.regout with
    | some (_, resp) => v = regoutValid * 2 ^ 8 + resp
    | none => v / 2 ^ 8 ≠ regoutValid
  | _, _ => true

/-- The registers after a step of the driver. A write that fails leaves them as they are. -/
def afterHost (a : BootAct) (boot : Boot) : BlSys :=
  match s.boot.pc, a with
  | .exchange _ .reginWrite, .done true =>
    { s with boot, issued := s.issued + 1, regin := some (s.issued + 1) }
  | .exchange _ .regoutRead, .reg (some _) => { s with boot, seen := (s.regout.map Prod.fst).getD s.seen }
  | .exchange _ (.regoutDone _), .timer false =>
    { s with boot, accepted := (s.issued, s.seen) :: s.accepted }
  | .exchange _ (.regoutWrite _), .done true => { s with boot, regout := none }
  | _, _ => { s with boot }

def step : BlAct → Option BlSys
  | .host a => if s.admits a then (s.boot.step a).map (s.afterHost a) else none
  | .take =>
    match s.regin with
    | some n => some { s with regin := none, pending := n :: s.pending }
    | none => none
  | .answer n resp =>
    if n ∈ s.pending ∧ resp < 2 ^ 8 then
      some { s with pending := s.pending.erase n, regout := some (n, resp) }
    else none

end BlSys

/-- The state in which `device_init` calls `load_fw_thru_sbl`: it has just invalidated the register. -/
def blStart (cfg : BootConfig) : BlSys :=
  { boot := loadFwThruSbl cfg, issued := 0, regin := none, pending := [], regout := none, seen := 0,
    accepted := [] }

/-- Every response accepted was the one to the command. -/
def Agreed (s : BlSys) : Prop := ∀ p ∈ s.accepted, p.2 = p.1

instance (s : BlSys) : Decidable (Agreed s) := inferInstanceAs (Decidable (∀ _ ∈ _, _))

/-- The exchanges whose failure is followed by another command. -/
def Exchange.followed : Exchange → Bool
  | .checkCrc | .pingPong .hostedFw _ | .eofReached .hostedFw => true
  | _ => false

/-- The answer makes `bl_write_cmd` give up between writing a command and clearing its response. -/
def BlPhase.gaveUp : BlPhase → BootAct → Bool
  | .regoutLoop, .timer expired => expired
  | .regoutRead, .reg v => v.isNone
  | .regoutDone _, .timer expired => expired
  | .regoutWrite _, .done ok => !ok
  | _, _ => false

/-- No exchange is given up after its command was written when other commands follow it. -/
def noneGivenUp (s : BlSys) (a : BlAct) : Bool :=
  match s.boot.pc, a with
  | .exchange e ph, .host a => !(e.followed && ph.gaveUp a)
  | _, _ => true

inductive Stage
  | quiet | awaiting | holding | ended
  deriving DecidableEq, Repr

def BootPc.stage : BootPc → Stage
  | .exchange _ .regoutLoop | .exchange _ .regoutRead => .awaiting
  | .exchange _ (.regoutDone _) | .exchange _ (.regoutWrite _) => .holding
  | .success | .fail => .ended
  | _ => .quiet

section Stages

variable {b b' : Boot} {e : Exchange} {a : BootAct} {u : Upgrade} {ok : Bool}

/-- Between two exchanges, or at the end of the run. -/
def BootPc.Rests (pc : BootPc) : Prop := pc.stage = .quiet ∨ pc.stage = .ended

theorem upgradeFailed_rests : (b.upgradeFailed u).pc.Rests := by
  cases u with
  | hostedFw => exact .inl rfl
  | bootloader => exact .inr rfl

theorem nextChunk_rests (kk : Nat) : (b.nextChunk u kk).pc.Rests := by
  simp only [Boot.nextChunk]
  split_ifs
  · exact .inl rfl
  · exact .inl rfl

theorem autoFwUpgrade_rests : (b.autoFwUpgrade u).pc.Rests := by
  rw [Boot.autoFwUpgrade]
  split_ifs
  · exact nextChunk_rests 0
  · exact upgradeFailed_rests

theorem afterExchange_rests : (b.afterExchange ok e).pc.Rests := by
  cases e with
  | checkCrc | pollingMode =>
    simp only [Boot.afterExchange]
    split_ifs
    · exact .inl rfl
    · exact .inl rfl
    · exact .inr rfl
  | configAutoRead | burnBootloader =>
    cases ok with
    | false => exact .inr rfl
    | true => exact .inl rfl
  | loadImage | jumpToZero =>
    cases ok with
    | false => exact .inr rfl
    | true => exact .inr rfl
  | fwUpgrade =>
    cases ok with
    | false => exact .inr rfl
    | true => exact autoFwUpgrade_rests
  | pingPong u kk =>
    cases ok with
    | false => exact upgradeFailed_rests
    | true => exact nextChunk_rests _
  | eofReached u =>
    cases ok with
    | false => exact upgradeFailed_rests
    | true => cases u <;> exact .inl rfl
  | autoReadMode =>
    by_cases hsbl : ok = true ∧ b.cfg.flashesSbl = true
    · exact .inl (by simp [Boot.afterExchange, hsbl, Boot.goto, BootPc.stage])
    · exact .inr (by simp [Boot.afterExchange, hsbl, Boot.goto, BootPc.stage])

/-- Every other exchange that fails ends the run. -/
theorem failed_ended (he : e.followed = false) : (b.afterExchange false e).pc.stage = .ended := by
  cases e with
  | checkCrc => cases he
  | pingPong u kk =>
    cases u with
    | hostedFw => cases he
    | bootloader => rfl
  | eofReached u =>
    cases u with
    | hostedFw => cases he
    | bootloader => rfl
  | pollingMode => rfl
  | autoReadMode => simp [Boot.afterExchange, Boot.goto, BootPc.stage]
  | configAutoRead | burnBootloader | loadImage | jumpToZero | fwUpgrade => rfl

theorem started_ended (he : e.cmd = .loadHostedFw ∨ e.cmd = .jumpToZeroPc) :
    (b.afterExchange true e).pc.stage = .ended := by
  cases e with
  | loadImage | jumpToZero => rfl
  | pingPong u kk =>
    simp only [Exchange.cmd] at he
    split_ifs at he <;> simp at he
  | _ => simp [Exchange.cmd] at he

theorem selectPath_rests : b.selectPath.pc.Rests := by
  rw [Boot.selectPath]
  split_ifs
  · exact .inl rfl
  · cases b.cfg.fwLoadMode with
    | flashRamNoSbl => exact .inr rfl
    | fullFlashSbl | fullRamSbl | flashRamSbl => exact .inl rfl

/-- Outside the exchanges a step leads to the next of them or to the end. -/
theorem step_rests (hpc : ∀ e ph, b.pc ≠ .exchange e ph) (h : b.step a = some b') : b'.pc.Rests := by
  revert h
  fun_cases Boot.step b a
  case case1 e ph hex => exact absurd hex (hpc e ph)
  all_goals rintro ⟨⟩
  case case2 =>
    split_ifs
    · exact .inr rfl
    · exact selectPath_rests
  case case3 | case8 => exact .inr rfl
  case case4 => exact .inl rfl
  case case5 ok _ | case6 ok _ | case7 ok _ | case11 ok _ =>
    cases ok with
    | false => exact .inr rfl
    | true => exact .inl rfl
  case case9 => exact autoFwUpgrade_rests
  case case10 ok _ =>
    cases ok with
    | false => exact upgradeFailed_rests
    | true => exact .inl rfl
  case case12 ok _ =>
    cases ok with
    | false => exact .inr rfl
    | true => exact .inr rfl

theorem stage_of_step (hpc : ∀ e ph, b.pc ≠ .exchange e ph) (h : b.step a = some b') : b.pc.stage = .quiet := by
  revert h
  unfold Boot.step
  cases hb : b.pc with
  | exchange e ph => exact absurd hb (hpc e ph)
  | success | fail => cases a <;> simp
  | _ => exact fun _ => rfl

end Stages

/-- No command is on its way. -/
structure BlSys.Idle (s : BlSys) : Prop where
  regin : s.regin = none
  pending : s.pending = []
  regout : s.regout = none

/-- The command issued last is the only one on its way, in one of three places. -/
def BlSys.Outstanding (s : BlSys) : Prop :=
  (s.regin = some s.issued ∧ s.pending = [] ∧ s.regout = none) ∨
  (s.regin = none ∧ s.pending = [s.issued] ∧ s.regout = none) ∨
  (s.regin = none ∧ s.pending = [] ∧ ∃ resp, s.regout = some (s.issued, resp))

/-- A response while one command is on its way is the one to it. -/
theorem BlSys.Outstanding.responded {s : BlSys} (h : s.Outstanding) (hsome : s.regout ≠ none) :
    s.regin = none ∧ s.pending = [] ∧ ∃ resp, s.regout = some (s.issued, resp) := by
  rcases h with ⟨-, -, hnone⟩ | ⟨-, -, hnone⟩ | hresp
  · exact absurd hnone hsome
  · exact absurd hnone hsome
  · exact hresp

structure BlSys.Answered (s : BlSys) : Prop where
  regin : s.regin = none
  pending : s.pending = []
  regout : ∃ resp, s.regout = some (s.issued, resp)
  seen : s.seen = s.issued

def BlSys.Fits (s : BlSys) : Prop :=
  match s.boot.pc.stage with
  | .quiet => s.Idle
  | .awaiting => s.Outstanding
  | .holding => s.Answered
  | .ended => True

structure BlInv (s : BlSys) : Prop where
  fits : s.Fits
  agreed : Agreed s

namespace BlInv

variable {s t : BlSys} {e : Exchange} {a : BootAct} {boot : Boot}

theorem of_rests (hagreed : Agreed s) (hidle : s.Idle) (hrests : s.boot.pc.Rests) : BlInv s := by
  refine ⟨?_, hagreed⟩
  rcases hrests with h | h
  · rw [BlSys.Fits, h]
    exact hidle
  · rw [BlSys.Fits, h]
    trivial

theorem of_ended (hagreed : Agreed s) (hended : s.boot.pc.stage = .ended) : BlInv s := by
  refine ⟨?_, hagreed⟩
  rw [BlSys.Fits, hended]
  trivial

theorem idle (h : BlInv s) (hs : s.boot.pc.stage = .quiet) : s.Idle := by
  have hf := h.fits
  rw [BlSys.Fits, hs] at hf
  exact hf

theorem outstanding (h : BlInv s) (hs : s.boot.pc.stage = .awaiting) : s.Outstanding := by
  have hf := h.fits
  rw [BlSys.Fits, hs] at hf
  exact hf

theorem answered (h : BlInv s) (hs : s.boot.pc.stage = .holding) : s.Answered := by
  have hf := h.fits
  rw [BlSys.Fits, hs] at hf
  exact hf

/-- A step of the driver while no command is on its way, and none is written. -/
theorem rests (h : BlInv s) (hs : s.boot.pc.stage = .quiet) (hrests : boot.pc.Rests) : BlInv { s with boot } := by
  have hidle := h.idle hs
  exact of_rests h.agreed ⟨hidle.regin, hidle.pending, hidle.regout⟩ hrests

/-- An exchange that is given up after its command was written is the last one. -/
theorem giveUp (h : BlInv s) (he : e.followed = false) (b : Boot) :
    BlInv { s with boot := b.afterExchange false e } :=
  of_ended h.agreed (failed_ended he)

theorem take (h : BlInv s) (ht : s.step .take = some t) : BlInv t := by
  simp only [BlSys.step] at ht
  cases hregin : s.regin with
  | none => simp [hregin] at ht
  | some n =>
    rw [hregin] at ht
    cases ht
    refine ⟨?_, h.agreed⟩
    rw [BlSys.Fits]
    cases hstage : s.boot.pc.stage with
    | quiet => simp [(h.idle hstage).regin] at hregin
    | holding => simp [(h.answered hstage).regin] at hregin
    | ended => trivial
    | awaiting =>
      rcases h.outstanding hstage with ⟨hin, hpend, hout⟩ | ⟨hin, -⟩ | ⟨hin, -⟩
      · rw [hregin] at hin
        cases hin
        exact .inr (.inl ⟨rfl, by rw [hpend], hout⟩)
      · simp [hin] at hregin
      · simp [hin] at hregin

theorem answer {n resp : Nat} (h : BlInv s) (ht : s.step (.answer n resp) = some t) : BlInv t := by
  simp only [BlSys.step] at ht
  split_ifs at ht with hn
  cases ht
  refine ⟨?_, h.agreed⟩
  rw [BlSys.Fits]
  cases hstage : s.boot.pc.stage with
  | quiet => simp [(h.idle hstage).pending] at hn
  | holding => simp [(h.answered hstage).pending] at hn
  | ended => trivial
  | awaiting =>
    rcases h.outstanding hstage with ⟨-, hpend, -⟩ | ⟨hin, hpend, hout⟩ | ⟨-, hpend, -⟩
    · simp [hpend] at hn
    · have hlast : n = s.issued := by simpa [hpend] using hn.1
      subst hlast
      exact .inr (.inr ⟨hin, by simp [hpend], resp, rfl⟩)
    · simp [hpend] at hn

/-- A valid value in `REGOUT` is an answer of the bootloader. -/
theorem regout_ne_none {v : Nat} (hpc : s.boot.pc = .exchange e .regoutRead)
    (hadm : s.admits (.reg (some v)) = true) (hvalid : v / 2 ^ 8 = regoutValid) : s.regout ≠ none := by
  intro hnone
  simp only [BlSys.admits, hpc, hnone] at hadm
  exact of_decide_eq_true hadm hvalid

/-- One answer to `bl_write_cmd`. -/
theorem blWriteCmd {ph : BlPhase} (h : BlInv s) (hpc : s.boot.pc = .exchange e ph)
    (hok : noneGivenUp s (.host a) = true) (hadm : s.admits a = true)
    (hb : s.boot.blWriteCmd e ph a = some boot) : BlInv (s.afterHost a boot) := by
  simp only [noneGivenUp, hpc] at hok
  revert hb
  fun_cases Boot.blWriteCmd s.boot e ph a <;> rintro ⟨⟩
  case case1 expired | case4 expired =>
    simp only [BlSys.afterHost, hpc]
    refine h.rests (by rw [hpc]; rfl) ?_
    cases expired with
    | false => exact .inl rfl
    | true => exact afterExchange_rests
  case case2 | case5 =>
    simp only [BlSys.afterHost, hpc]
    exact h.rests (by rw [hpc]; rfl) afterExchange_rests
  case case3 v =>
    simp only [BlSys.afterHost, hpc]
    refine h.rests (by rw [hpc]; rfl) (.inl ?_)
    simp only [Boot.goto]
    split_ifs <;> rfl
  case case6 =>
    have hidle : s.Idle := h.idle (by rw [hpc]; rfl)
    simp only [BlSys.afterHost, hpc]
    split_ifs with hstart
    · exact of_ended h.agreed (started_ended hstart)
    · exact ⟨.inl ⟨rfl, hidle.pending, hidle.regout⟩, h.agreed⟩
  case case7 expired =>
    have hout : s.Outstanding := h.outstanding (by rw [hpc]; rfl)
    simp only [BlSys.afterHost, hpc]
    cases expired with
    | false => exact ⟨hout, h.agreed⟩
    | true => exact h.giveUp (by simpa [BlPhase.gaveUp] using hok) _
  case case8 =>
    simp only [BlSys.afterHost, hpc]
    exact h.giveUp (by simpa [BlPhase.gaveUp] using hok) _
  case case9 v =>
    have hout : s.Outstanding := h.outstanding (by rw [hpc]; rfl)
    simp only [BlSys.afterHost, hpc]
    by_cases hvalid : v / 2 ^ 8 = regoutValid
    · obtain ⟨hin, hpend, resp, hresp⟩ := hout.responded (regout_ne_none hpc hadm hvalid)
      rw [if_pos hvalid]
      exact ⟨⟨hin, hpend, ⟨resp, hresp⟩, by simp [hresp]⟩, h.agreed⟩
    · rw [if_neg hvalid]
      exact ⟨hout, h.agreed⟩
  case case10 v expired =>
    have hans : s.Answered := h.answered (by rw [hpc]; rfl)
    simp only [BlSys.afterHost, hpc]
    cases expired with
    | true => exact h.giveUp (by simpa [BlPhase.gaveUp] using hok) _
    | false =>
      refine ⟨⟨hans.regin, hans.pending, hans.regout, hans.seen⟩, ?_⟩
      exact List.forall_mem_cons.mpr ⟨hans.seen, h.agreed⟩
  case case11 v ok =>
    have hans : s.Answered := h.answered (by rw [hpc]; rfl)
    simp only [BlSys.afterHost, hpc]
    cases ok with
    | false => exact h.giveUp (by simpa [BlPhase.gaveUp] using hok) _
    | true => exact of_rests h.agreed ⟨hans.regin, hans.pending, rfl⟩ afterExchange_rests

theorem host (h : BlInv s) (hok : noneGivenUp s (.host a) = true) (ht : s.step (.host a) = some t) :
    BlInv t := by
  simp only [BlSys.step] at ht
  split_ifs at ht with hadm
  obtain ⟨boot, hboot, rfl⟩ := Option.map_eq_some_iff.mp ht
  by_cases hpc : ∃ e ph, s.boot.pc = .exchange e ph
  · obtain ⟨e, ph, hpc⟩ := hpc
    simp only [Boot.step, hpc] at hboot
    exact h.blWriteCmd hpc hok hadm hboot
  · have hnot : ∀ e ph, s.boot.pc ≠ .exchange e ph := fun e ph he => hpc ⟨e, ph, he⟩
    have hafter : s.afterHost a boot = { s with boot } := by
      unfold BlSys.afterHost
      split
      case h_1 he | h_2 he | h_3 he | h_4 he => exact absurd he (hnot _ _)
      case h_5 => rfl
    rw [hafter]
    exact h.rests (stage_of_step hnot hboot) (step_rests hnot hboot)

theorem step {a : BlAct} (h : BlInv s) (hok : noneGivenUp s a = true) (ht : s.step a = some t) : BlInv t := by
  cases a with
  | host a => exact h.host hok ht
  | take => exact h.take ht
  | answer n resp => exact h.answer ht

theorem start (cfg : BootConfig) : BlInv (blStart cfg) :=
  ⟨⟨rfl, rfl, rfl⟩, List.forall_mem_nil _⟩

end BlInv

/-- In every run that gives up no exchange with other commands to follow, each response accepted is the
one to the command, at whatever times the bootloader takes and answers the commands. -/
theorem responses_agree {cfg : BootConfig} {as : List BlAct} {s : BlSys}
    (hok : Meets BlSys.step noneGivenUp (blStart cfg) as)
    (hrun : run BlSys.step (blStart cfg) as = some s) : Agreed s :=
  (run_invariant BlInv.step (BlInv.start cfg) hok hrun).agreed

/-- The answers of one exchange up to its command, and from there to a response. -/
def sendCmd : List BlAct := [.host (.timer false), .host (.reg (some 0)), .host (.timer false), .host (.done true)]

def readResp (resp : Nat) : List BlAct :=
  [.host (.timer false), .host (.reg (some (regoutValid * 2 ^ 8 + resp))), .host (.timer false), .host (.done true)]

def flashRamBoot : BootConfig :=
  { fwLoadMode := .flashRamSbl, driverMode := .wifiModeOn, flashingMode := .swblFlashingNosbl }

/-- Up to the command `CHECK_CRC`, the second one. -/
def crcSent : List BlAct :=
  sendCmd ++ ([.take, .answer 1 cmdPass] : List BlAct) ++ readResp cmdPass ++
    ([.host (.reg (some 4096)), .host (.file (some { contentSize := 1, flashStartAddress := 69632 })),
      .host (.done true)] : List BlAct) ++ sendCmd ++ ([.take] : List BlAct)

/-- The timer for `CHECK_CRC` expires, and its answer comes while `POLLING_MODE` waits for one. -/
theorem lateCrc_taken_for_polling :
    ∃ s, run BlSys.step (blStart flashRamBoot)
        (crcSent ++ [.host (.timer true)] ++ sendCmd ++ [.answer 2 cmdPass] ++ readResp cmdPass) = some s ∧
      s.boot.pc = .loadPmemdata ∧ (3, 2) ∈ s.accepted ∧ ¬ Agreed s := by
  exact exists_run (by decide +kernel)

/-- With the answer in time both commands get their own. -/
theorem responses_agree_flashRam :
    ∃ s, run BlSys.step (blStart flashRamBoot)
        (crcSent ++ [.answer 2 cmdPass] ++ readResp cmdPass ++ sendCmd ++ [.take, .answer 3 cmdPass] ++
          readResp cmdPass) = some s ∧ s.accepted = [(3, 3), (2, 2), (1, 1)] ∧ Agreed s := by
  exact exists_run_and (by decide +kernel) fun s hs => responses_agree (by decide +kernel) hs

end Onebox
