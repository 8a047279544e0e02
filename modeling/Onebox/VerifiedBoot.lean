import Onebox.Bootloader

/-! Verified boot: the firmware is started only after its CRC was found good or
after a complete upgrade. This holds as long as `CHECK_CRC` gets an answer that
`load_fw_thru_sbl` knows; a missing or unknown answer is taken for a pass. -/

namespace Onebox

open Machine

def Cleared (log : List BootEvent) : Prop :=
  .answered .checkCrc cmdPass ∈ log ∨ .upgraded ∈ log

/-- The two commands that start the firmware come only after clearance. -/
def Verified (log : List BootEvent) : Prop :=
  ∀ post pre c, log = post ++ .issued c :: pre → c = .loadHostedFw ∨ c = .jumpToZeroPc → Cleared pre

/-- `CHECK_CRC` is answered with `CMD_PASS` or `CMD_FAIL`: until the answer there is neither a timeout
nor a bus error, and after it a timeout only if it was `CMD_PASS`. -/
def crcAnswered (b : Boot) (a : BootAct) : Bool :=
  match b.pc, a with
  | .exchange .checkCrc .reginLoop, .timer expired => !expired
  | .exchange .checkCrc .reginRead, .reg v => v.isSome
  | .exchange .checkCrc .reginDone, .timer expired => !expired
  | .exchange .checkCrc .reginWrite, .done ok => ok
  | .exchange .checkCrc .regoutLoop, .timer expired => !expired
  | .exchange .checkCrc .regoutRead, .reg v =>
    v.any fun v => v / 2 ^ 8 ≠ regoutValid || lowByte v = cmdPass || lowByte v = cmdFail
  | .exchange .checkCrc (.regoutDone v), .timer expired => !expired || lowByte v = cmdPass
  | _, _ => true

theorem Cleared.cons {log : List BootEvent} {e : BootEvent} (h : Cleared log) : Cleared (e :: log) :=
  h.imp (List.mem_cons_of_mem e) (List.mem_cons_of_mem e)

theorem Verified.cons {log : List BootEvent} {e : BootEvent} (h : Verified log)
    (he : ∀ c, e = .issued c → c = .loadHostedFw ∨ c = .jumpToZeroPc → Cleared log) :
    Verified (e :: log) := by
  intro post pre c hsplit hc
  cases post with
  | nil =>
    obtain ⟨rfl, rfl⟩ := List.cons.inj hsplit
    exact he c rfl hc
  | cons e' post => exact h post pre c (List.cons.inj hsplit).2 hc

def Exchange.afterCheck : Exchange → Bool
  | .loadImage | .pollingMode | .jumpToZero => true
  | _ => false

theorem Exchange.afterCheck_of_cmd {e : Exchange} (h : e.cmd = .loadHostedFw ∨ e.cmd = .jumpToZeroPc) :
    e.afterCheck = true := by
  cases e <;> simp_all [Exchange.cmd, Exchange.afterCheck]
  split_ifs at h <;> simp_all

def BlPhase.waiting : BlPhase → Bool
  | .regoutDone _ | .regoutWrite _ => false
  | _ => true

/-- What is known where the run stands. -/
def Boot.Known (b : Boot) : Prop :=
  match b.pc with
  | .exchange .checkCrc (.regoutDone v) =>
    (lowByte v = cmdPass ∧ Cleared b.log) ∨ lowByte v = cmdFail
  | .exchange .checkCrc (.regoutWrite v) =>
    (lowByte v = cmdPass ∧ Cleared b.log) ∨ (lowByte v = cmdFail ∧ lowByte b.regoutVal = cmdFail)
  | .exchange e _ => e.afterCheck = true → Cleared b.log
  | .loadPmemdata => Cleared b.log
  | _ => True

structure BootBase (b : Boot) : Prop where
  keepsSbl : b.cfg.flashesSbl = false
  checksCrc : b.cfg.fwLoadMode = .fullFlashSbl ∨ b.cfg.fwLoadMode = .flashRamSbl
  verified : Verified b.log

structure BootInv (b : Boot) : Prop extends BootBase b where
  known : b.Known

namespace BootBase

variable {b : Boot} {e : Exchange} {u : Upgrade}

theorem goto (h : BootBase b) {pc : BootPc} (hk : (b.goto pc).Known) : BootInv (b.goto pc) :=
  ⟨⟨h.keepsSbl, h.checksCrc, h.verified⟩, hk⟩

theorem issue (h : BootBase b) (hk : e.afterCheck = true → Cleared b.log) : BootInv (b.issue e) := by
  refine h.goto ?_
  cases e <;> exact hk

theorem note {ev : BootEvent} (h : BootBase b)
    (hev : ∀ c, ev = .issued c → c = .loadHostedFw ∨ c = .jumpToZeroPc → Cleared b.log) :
    BootBase (b.note ev) :=
  ⟨h.keepsSbl, h.checksCrc, h.verified.cons hev⟩

theorem wait {ph : BlPhase} (h : BootBase b) (hc : e.afterCheck = true → Cleared b.log)
    (hph : ph.waiting = true) : BootInv (b.goto (.exchange e ph)) := by
  refine h.goto ?_
  cases e <;> cases ph <;> simp_all [Boot.Known, Boot.goto, BlPhase.waiting, Exchange.afterCheck]

theorem upgradeFailed (h : BootBase b) : BootInv (b.upgradeFailed u) := by
  cases u with
  | hostedFw => exact h.issue nofun
  | bootloader => exact h.goto trivial

theorem nextChunk (h : BootBase b) (kk : Nat) : BootInv (b.nextChunk u kk) := by
  unfold Boot.nextChunk
  simp only
  split
  · exact h.goto trivial
  · exact h.issue nofun

theorem autoFwUpgrade (h : BootBase b) : BootInv (b.autoFwUpgrade u) := by
  unfold Boot.autoFwUpgrade
  split
  · exact h.nextChunk 0
  · exact h.upgradeFailed

theorem upgradeDone (h : BootBase b) : BootInv ((b.note .upgraded).upgradeDone u) := by
  have hn : BootBase (b.note .upgraded) := h.note nofun
  cases u with
  | hostedFw => exact hn.issue fun _ => .inr (List.mem_cons_self ..)
  | bootloader => exact hn.issue nofun

theorem selectPath (h : BootBase b) : BootInv b.selectPath := by
  have hpath : b.selectPath = b.goto .rpsImageHeader := by
    rcases h.checksCrc with hm | hm <;> simp [Boot.selectPath, h.keepsSbl, hm]
  rw [hpath]
  exact h.goto trivial

theorem afterExchange {ok : Bool} (h : BootBase b) (hc : e.afterCheck = true → Cleared b.log)
    (hcrc : e = .checkCrc → Cleared b.log ∨ (ok = false ∧ lowByte b.regoutVal = cmdFail)) :
    BootInv (b.afterExchange ok e) := by
  cases e with
  | checkCrc =>
    unfold Boot.afterExchange
    simp only
    split_ifs with hfail hmode
    · exact h.issue nofun
    · refine h.issue fun _ => (hcrc rfl).resolve_right fun hno => hfail ?_
      simp [hno]
    · exact h.goto trivial
  | configAutoRead => cases ok <;> exact h.goto trivial
  | loadImage | jumpToZero => cases ok <;> exact h.goto trivial
  | pollingMode =>
    unfold Boot.afterExchange
    simp only
    split_ifs
    · exact h.issue fun _ => hc rfl
    · exact h.goto (hc rfl)
    · exact h.goto trivial
  | fwUpgrade =>
    cases ok
    · exact h.goto trivial
    · exact h.autoFwUpgrade
  | burnBootloader => cases ok <;> exact h.goto trivial
  | pingPong u kk =>
    cases ok
    · exact h.upgradeFailed
    · exact h.nextChunk (kk + 1)
  | eofReached u =>
    cases ok
    · exact h.upgradeFailed
    · exact h.upgradeDone
  | autoReadMode =>
    simp only [Boot.afterExchange, h.keepsSbl]
    exact h.goto (by simp [Boot.Known, Boot.goto])

end BootBase

namespace BootInv

variable {b b' : Boot} {e : Exchange} {ph : BlPhase} {a : BootAct}

theorem cleared (h : BootInv b) (hpc : b.pc = .exchange e ph) (he : e.afterCheck = true) :
    Cleared b.log := by
  have hk := h.known
  unfold Boot.Known at hk
  rw [hpc] at hk
  cases e <;> simp_all [Exchange.afterCheck]

theorem wait (h : BootInv b) (hpc : b.pc = .exchange e ph) {ph' : BlPhase} (hph : ph'.waiting = true) :
    BootInv (b.goto (.exchange e ph')) :=
  h.toBootBase.wait (h.cleared hpc) hph

theorem finish {ok : Bool} (h : BootInv b) (hpc : b.pc = .exchange e ph)
    (hcrc : e = .checkCrc → Cleared b.log ∨ (ok = false ∧ lowByte b.regoutVal = cmdFail)) :
    BootInv (b.afterExchange ok e) :=
  h.toBootBase.afterExchange (h.cleared hpc) hcrc

theorem expire (h : BootInv b) (hpc : b.pc = .exchange e ph) {ph' : BlPhase} {expired : Bool}
    (hcrc : e = .checkCrc → expired = false) (hph : ph'.waiting = true) :
    BootInv (if expired then b.afterExchange false e else b.goto (.exchange e ph')) := by
  split
  case isTrue hexp => exact h.finish hpc fun he => by simp [hcrc he] at hexp
  case isFalse => exact h.wait hpc hph

theorem issued (h : BootInv b) (hpc : b.pc = .exchange e ph) : BootBase (b.note (.issued e.cmd)) := by
  refine h.toBootBase.note fun c hc hstart => ?_
  cases hc
  exact h.cleared hpc (Exchange.afterCheck_of_cmd hstart)

theorem answered (h : BootInv b) (hpc : b.pc = .exchange e ph) {v : Nat}
    (hv : e = .checkCrc → lowByte v = cmdPass ∨ lowByte v = cmdFail) :
    BootInv ((b.note (.answered e.cmd (lowByte v))).goto (.exchange e (.regoutDone v))) := by
  have hc := h.cleared hpc
  have hn : BootBase (b.note (.answered e.cmd (lowByte v))) := h.toBootBase.note nofun
  refine hn.goto ?_
  by_cases he : e = .checkCrc
  · subst he
    refine (hv rfl).imp_left fun hpass => ⟨hpass, .inl ?_⟩
    rw [hpass]
    exact List.mem_cons_self ..
  · cases e <;> first | exact fun he => (hc he).cons | exact absurd rfl he

theorem respond {v : Nat} (h : BootInv b) (hpc : b.pc = .exchange e (.regoutDone v)) :
    BootInv ((b.setCmdResp e v).goto (.exchange e (.regoutWrite v))) := by
  -- the response is stored before `REGOUT` is invalidated, so it is known even if that write fails
  by_cases he : e = .checkCrc
  · subst he
    have hk := h.known
    simp only [Boot.Known, hpc] at hk
    have hb : BootBase (b.setCmdResp .checkCrc v) := ⟨h.keepsSbl, h.checksCrc, h.verified⟩
    refine hb.goto (hk.imp_right fun hv => ⟨hv, ?_⟩)
    have hlow : v % 2 ^ 16 % 256 = v % 256 := by omega
    exact hlow.trans hv
  · have hb : b.setCmdResp e v = b := if_neg he
    rw [hb]
    refine h.toBootBase.goto ?_
    have hc := h.cleared hpc
    cases e <;> first | exact hc | exact absurd rfl he

theorem blWriteCmd (h : BootInv b) (hpc : b.pc = .exchange e ph) (hok : crcAnswered b a = true)
    (hs : b.blWriteCmd e ph a = some b') : BootInv b' := by
  revert hs
  fun_cases Boot.blWriteCmd b e ph a <;> rintro ⟨⟩
  case case1 | case4 | case7 =>
    exact h.expire hpc (fun he => by simpa [crcAnswered, hpc, he] using hok) rfl
  case case2 | case5 | case8 =>
    exact h.finish hpc fun he => by simp [crcAnswered, hpc, he] at hok
  case case3 => exact h.wait hpc (by split <;> rfl)
  case case6 =>
    have hn := h.issued hpc
    have hc : e.afterCheck = true → Cleared (b.note (.issued e.cmd)).log := fun he => (h.cleared hpc he).cons
    split
    case isTrue hcmd =>
      refine hn.afterExchange hc fun he => ?_
      simp [he, Exchange.cmd] at hcmd
    case isFalse => exact hn.wait hc rfl
  case case9 v =>
    split
    case isTrue hvalid =>
      refine h.answered hpc fun he => ?_
      simp only [crcAnswered, hpc, he, Option.any_some, hvalid, ne_eq, not_true_eq_false, decide_false,
        Bool.false_or, Bool.or_eq_true, decide_eq_true_eq] at hok
      exact hok
    case isFalse => exact h.wait hpc rfl
  case case10 v expired =>
    split
    case isTrue hexp =>
      refine h.finish hpc fun he => .inl ?_
      have hpass : lowByte v = cmdPass := by simpa [crcAnswered, hpc, he, hexp] using hok
      have hk := h.known
      simp only [Boot.Known, hpc, he, hpass] at hk
      exact (hk.resolve_right (by decide)).2
    case isFalse => exact h.respond hpc
  case case11 v ok =>
    refine h.finish hpc fun he => ?_
    have hk := h.known
    simp only [Boot.Known, hpc, he] at hk
    rcases hk with ⟨-, hclr⟩ | ⟨hv, hr⟩
    · exact .inl hclr
    · exact .inr ⟨by simp [he, hv, Exchange.expResp, cmdPass, cmdFail], hr⟩

theorem step (h : BootInv b) (hok : crcAnswered b a = true) (hs : b.step a = some b') : BootInv b' := by
  revert hs
  fun_cases Boot.step b a
  case case1 hpc => exact h.blWriteCmd hpc hok
  all_goals rintro ⟨⟩
  case case2 v hpc =>
    split
    · exact h.toBootBase.goto trivial
    · exact BootBase.selectPath ⟨h.keepsSbl, h.checksCrc, h.verified⟩
  case case4 => exact ⟨⟨h.keepsSbl, h.checksCrc, h.verified⟩, trivial⟩
  case case5 ok _ =>
    cases ok
    · exact h.toBootBase.goto trivial
    · exact h.toBootBase.issue nofun
  case case6 ok hpc =>
    have hk : Cleared b.log := by simpa only [Boot.Known, hpc] using h.known
    cases ok
    · exact h.toBootBase.goto trivial
    · exact h.toBootBase.issue fun _ => hk
  case case7 ok _ =>
    cases ok
    · exact h.toBootBase.goto trivial
    · exact h.toBootBase.issue nofun
  case case9 => exact BootBase.autoFwUpgrade ⟨h.keepsSbl, h.checksCrc, h.verified⟩
  case case10 u kk ok _ =>
    cases ok
    · exact h.toBootBase.upgradeFailed
    · exact h.toBootBase.issue nofun
  case case11 ok _ | case12 ok _ => cases ok <;> exact h.toBootBase.goto trivial
  all_goals exact h.toBootBase.goto trivial

theorem start {cfg : BootConfig} (hq : cfg.driverMode ≠ .qspiFlashing)
    (hmode : cfg.fwLoadMode = .fullFlashSbl ∨ cfg.fwLoadMode = .flashRamSbl) :
    BootInv (loadFwThruSbl cfg) where
  keepsSbl := by simp [loadFwThruSbl, BootConfig.flashesSbl, hq]
  checksCrc := hmode
  verified post pre c hsplit := by simp [loadFwThruSbl] at hsplit
  known := nofun

end BootInv

/-- Verified boot over every run in which `CHECK_CRC` gets one of its two answers. -/
theorem verified_boot {cfg : BootConfig} {as : List BootAct} {b : Boot} (hq : cfg.driverMode ≠ .qspiFlashing)
    (hmode : cfg.fwLoadMode = .fullFlashSbl ∨ cfg.fwLoadMode = .flashRamSbl)
    (hok : Meets Boot.step crcAnswered (loadFwThruSbl cfg) as)
    (hrun : run Boot.step (loadFwThruSbl cfg) as = some b) : Verified b.log :=
  (run_invariant BootInv.step (BootInv.start hq hmode) hok hrun).verified

def fullFlash : BootConfig :=
  { fwLoadMode := .fullFlashSbl, driverMode := .wifiModeOn, flashingMode := .swblFlashingNosbl }

def answer (resp : Nat) : List BootAct :=
  [.timer false, .reg (some 0), .timer false, .done true, .timer false,
    .reg (some (regoutValid * 2 ^ 8 + resp)), .timer false, .done true]

def untilCheckCrc : List BootAct :=
  answer cmdPass ++
    ([.reg (some 4096), .file (some { contentSize := 1, flashStartAddress := 69632 }), .done true] : List BootAct)

def pollAndLoad : List BootAct :=
  answer cmdPass ++ ([.timer false, .reg (some 0), .timer false, .done true] : List BootAct)

theorem verified_boot_crcPass :
    Meets Boot.step crcAnswered (loadFwThruSbl fullFlash) (untilCheckCrc ++ answer cmdPass ++ pollAndLoad) ∧
      ∃ b, run Boot.step (loadFwThruSbl fullFlash) (untilCheckCrc ++ answer cmdPass ++ pollAndLoad) = some b ∧
        b.pc = .success ∧ Verified b.log := by
  have hok : Meets Boot.step crcAnswered (loadFwThruSbl fullFlash)
      (untilCheckCrc ++ answer cmdPass ++ pollAndLoad) := by decide
  exact ⟨hok, _, rfl, rfl, verified_boot (by decide) (.inl rfl) hok rfl⟩

/-- `CHECK_CRC` times out, and the firmware is started all the same. -/
theorem unverified_boot_crcTimeout :
    ∃ b, run Boot.step (loadFwThruSbl fullFlash) (untilCheckCrc ++ [.timer true] ++ pollAndLoad) = some b ∧
      b.pc = .success ∧ ¬ Verified b.log := by
  refine ⟨_, rfl, rfl, fun h => ?_⟩
  exact absurd (h [] _ .loadHostedFw rfl (.inl rfl)) (by unfold Cleared; decide)

end Onebox
