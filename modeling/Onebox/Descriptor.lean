import Onebox.Association

/-! The 16-byte descriptor that `prepare_onair_data_pkt_desc` puts before a data
frame, word by word. -/

namespace Onebox

structure NetbufFlags where
  broadcast : Bool
  multicast : Bool
  moreData : Bool
  eosp : Bool
  eapol : Bool
  deriving DecidableEq, Repr

/-- An Ethernet frame from the network stack. `extndSize` is what aligns the descriptor. -/
structure Netbuf where
  ni : NodePtr
  frame : List (BitVec 8)
  flags : NetbufFlags
  extndSize : BitVec 2
  deriving DecidableEq, Repr

/-- The part of a vap that only the data path uses. `wpaIe` stands for `iv_rsn_ie` or `iv_wpa_ie`. -/
structure VapTx where
  inUse : Bool
  fixedRateEnable : Bool
  rateHix : BitVec 16
  shortgi20 : Bool
  p2pEnable : Bool
  wpaIe : Bool
  deriving DecidableEq, Repr

/-- `wmeAcm` is the admission control bit of the selected queue. -/
structure Radio where
  fWme : Bool
  ht40 : Bool
  ht40u : Bool
  band24 : Bool
  wmeAcm : Bool
  deriving DecidableEq, Repr

/-- The eight words, and the retry count in the extended descriptor. -/
structure Desc where
  word : Vector (BitVec 16) 8
  retryCnt : Nat
  deriving DecidableEq, Repr

def Desc.byte (d : Desc) (i : Nat) : BitVec 8 :=
  let w := d.word.getD (i / 2) 0
  if i % 2 = 0 then w.setWidth 8 else (w >>> 8).setWidth 8

def Desc.encrypt (d : Desc) : Bool := d.word[6].getLsbD 15

def Netbuf.data (nb : Netbuf) (i : Nat) : BitVec 8 := nb.frame.getD i 0

/-- The packet with headroom, once its header has been put in front and cleared. -/
def Netbuf.headed (nb : Netbuf) : List (BitVec 8) :=
  List.replicate (16 + 4 + nb.extndSize.toNat) 0 ++ nb.frame

def Netbuf.etherType (nb : Netbuf) : BitVec 16 := nb.data 12 ++ nb.data 13

def etherTypePae : BitVec 16 := 0x888e

def bit (b : Bool) (w : BitVec 16) : BitVec 16 := if b then w else 0

/-- `data` is the memory from `netbuf_cb->data` on, after the header has been put in front and cleared. -/
structure DescArgs where
  radio : Radio
  vapTx : VapTx
  vap : Vap
  vapId : VapId
  node : Node
  nb : Netbuf
  data : List (BitVec 8)
  staId : Nat
  tid : Nat
  q : Nat

namespace DescArgs

variable (a : DescArgs)

def toAll : Bool := a.nb.flags.broadcast || a.nb.flags.multicast

def hostap : Bool := a.vap.opmode = .hostap

def acm : Bool := a.vap.opmode = .sta && a.radio.wmeAcm

/-- Without a traffic specification the frame goes to the background queue of the device. -/
def qNum : Nat := if a.acm then 0 else a.q

def tidNum : Nat := if a.acm then 1 else a.tid

def beaconQ : Bool := a.qNum = 9 || a.qNum = 11

/-- The test is meant for the EtherType and forgets the extended descriptor. -/
def eapolTest : Bool :=
  a.data.getD (16 + 12 + a.nb.extndSize.toNat) 0 = 0x88 &&
    a.data.getD (16 + 12 + a.nb.extndSize.toNat + 1) 0 = 0x8e

def word0 : BitVec 16 := BitVec.ofNat 16 (a.nb.frame.length + 4 + a.nb.extndSize.toNat) ||| 0x5000

def word1 : BitVec 16 :=
  0x0001 ||| bit (a.hostap && a.nb.flags.eosp && !a.beaconQ) 0x6000 ||| bit a.eapolTest 0x1000

def word2 : BitVec 16 := BitVec.ofNat 16 (a.nb.extndSize.toNat + 4)

def word3 : BitVec 16 :=
  bit a.vapTx.fixedRateEnable 0x0001 ||| bit (a.hostap && a.nb.flags.moreData && !a.beaconQ) 0x0002 |||
    bit a.beaconQ 0x0004 ||| bit a.toAll 0x0201

def shortgi : Bool := a.node.shortgi20 && a.vapTx.shortgi20 && (a.vapTx.rateHix &&& 0x0100) ≠ 0

def rate : BitVec 16 :=
  if a.toAll then bit (!a.radio.band24 || a.vapTx.p2pEnable) 0x008b
  else if a.vapTx.fixedRateEnable then a.vapTx.rateHix ||| bit a.shortgi 0x0200
  else 0

def word4 : BitVec 16 := a.rate ||| (BitVec.ofNat 16 a.vapId <<< 14)

def word5 : BitVec 16 :=
  if a.vapTx.fixedRateEnable && a.radio.ht40 then
    if a.node.chwidth40 then 0x0006 else if a.radio.ht40u then 0x4004 else 0x2002
  else 0

def encrypt : Bool := a.vap.privacy && (a.node.encryptEnbl || a.toAll)

def word6 : BitVec 16 := bit a.encrypt 0x8000 ||| bit a.node.addqos 0x1000 ||| bit a.eapolTest 0x2000

def tidAndQ : BitVec 16 :=
  ((BitVec.ofNat 16 a.tidNum &&& 0x000f) <<< 4) ||| (BitVec.ofNat 16 a.qNum &&& 0x000f)

def word7 : BitVec 16 := a.tidAndQ ||| (BitVec.ofNat 16 (if a.toAll then a.vapId else a.staId) <<< 8)

def prepare : Desc :=
  ⟨#v[a.word0, a.word1, a.word2, a.word3, a.word4, a.word5, a.word6, a.word7], bit a.eapolTest 15 |>.toNat⟩

theorem prepare_encrypt : a.prepare.encrypt = a.encrypt := by
  have h : a.word6.getLsbD 15 = a.encrypt := by
    unfold word6
    cases a.encrypt <;> cases a.node.addqos <;> cases a.eapolTest <;> rfl
  exact h

theorem tidAndQ_high {i : Nat} (hi : 8 ≤ i) : a.tidAndQ.getLsbD i = false := by
  have hmask : ∀ j, 4 ≤ j → (15#16).getLsbD j = false := by
    intro j hj
    have hlt : 15 < 2 ^ j := lt_of_lt_of_le (by decide) (Nat.pow_le_pow_right (by decide) hj)
    exact Nat.testBit_lt_two_pow hlt
  simp [tidAndQ, hmask i (by omega), hmask (i - 4) (by omega)]

theorem prepare_staId (h : a.toAll = false) : a.prepare.byte 15 = BitVec.ofNat 8 a.staId := by
  have hw : (a.word7 >>> 8).setWidth 8 = BitVec.ofNat 8 a.staId := by
    ext i hi
    have h8 : ¬ 8 + i < 8 := by omega
    have h16 : 8 + i < 16 := by omega
    have hi' : i < 16 := by omega
    have hlow : a.tidAndQ[8 + i] = false := a.tidAndQ_high (Nat.le_add_right 8 i)
    have hid : (BitVec.ofNat 16 a.staId)[i] = (BitVec.ofNat 8 a.staId)[i] := by
      simp only [← BitVec.getLsbD_eq_getElem, BitVec.getLsbD_ofNat, hi, hi', decide_true, Bool.true_and]
    simp [word7, h, hlow, h8, h16, hid]
  exact hw

end DescArgs

end Onebox
