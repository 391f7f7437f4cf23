import Mathlib.Algebra.Group.Int.Defs
import L8Tunnel.Base.Mac
import L8Tunnel.Transport.ProxyProto

/-! # What a signed stream header proves (transport/proxyproto.go) -/

namespace L8Tunnel.Transport
open Base

variable {w : Wire} {key subject client : List UInt8} {ts now : Int64} {tlvs : List TLV}

def Reading (now : Int64) : Prop := 0 ≤ now.toInt ∧ now.toInt < 2 ^ 62
instance (now : Int64) : Decidable (Reading now) := inferInstanceAs (Decidable (_ ∧ _))

theorem inWindow_iff (hnow : Reading now) :
    InWindow ts now ↔ (now.toInt - ts.toInt).natAbs ≤ 60 := by
  have hlow := Int64.le_toInt ts
  have hhigh := Int64.toInt_lt ts
  have hwindow : streamAuthWindow.toInt = 60 := rfl
  have hneg : (-streamAuthWindow).toInt = -60 := rfl
  obtain ⟨hpos, hsmall⟩ := hnow
  unfold InWindow
  rw [gt_iff_lt, Int64.lt_iff_toInt_lt, Int64.lt_iff_toInt_lt, hwindow, hneg, Int64.toInt_sub,
    Int.bmod_def]
  omega

variable {s s' c c' : List UInt8} {t t' : Int64}

theorem signedMessage_inj (hc : 0 ∉ c) (hc' : 0 ∉ c')
    (h : signedMessage s c t = signedMessage s' c' t') : s = s' ∧ c = c' ∧ t = t' := by
  unfold signedMessage at h
  simp only [List.append_assoc, List.singleton_append] at h
  obtain ⟨htime, hrest⟩ := List.append_inj h
    (by rw [Bytes.putUint64, Bytes.putUint64, Bytes.digits_length, Bytes.digits_length])
  have hbits := congrArg Bytes.uint64 htime
  rw [Bytes.uint64_putUint64, Bytes.uint64_putUint64] at hbits
  obtain ⟨hs, hclient⟩ := Mac.frame_last hc hc' hrest
  exact ⟨hs, hclient, by rw [← Int64.toInt64_toUInt64 t, hbits, Int64.toInt64_toUInt64]⟩

theorem signStream_inj {made : Set (List UInt8 × List UInt8)} (hideal : Mac.Ideal w.mac made)
    {key key' : List UInt8} (hc : 0 ∉ c) (hc' : 0 ∉ c') (hmade : (key, signedMessage s c t) ∈ made)
    (h : signStream w key s c t = signStream w key' s' c' t') :
    key = key' ∧ s = s' ∧ c = c' ∧ t = t' := by
  unfold signStream at h
  obtain ⟨-, htag⟩ := List.append_inj h
    (by rw [Bytes.putUint64, Bytes.putUint64, Bytes.digits_length, Bytes.digits_length])
  obtain ⟨hkey, hmsg⟩ := hideal.eq_of_mac_eq hmade htag
  exact ⟨hkey, signedMessage_inj hc hc' hmsg⟩

/-- A list of TLVs verifies for a client exactly if it names the tunnel and
carries the authenticator made for it, in time by exact integers. So what is
signed verifies for a minute on both sides, a header made for one tunnel and
client verifies for no other, and one that verifies was made by a key's holder. -/
theorem signed_headers_authenticate {made : Set (List UInt8 × List UInt8)}
    (hideal : Mac.Ideal w.mac made) (key : List UInt8) (tlvs : List TLV) (client : List UInt8)
    (hclient : 0 ∉ client) (now : Int64) (hnow : Reading now) :
    (∀ s, verifySignedTLVsOf w key tlvs client now = .ok s ↔
      findTLV tlvs tlvTunnel = some s ∧ ∃ ts : Int64, (now.toInt - ts.toInt).natAbs ≤ 60 ∧
        findTLV tlvs tlvAuth = findTLV (signedTLVsOf w key s client ts) tlvAuth) ∧
    (∀ s ts, verifySignedTLVsOf w key (signedTLVsOf w key s client ts) client now = .ok s ↔
      (now.toInt - ts.toInt).natAbs ≤ 60) ∧
    (∀ key' s c ts, 0 ∉ c → (key', signedMessage s c ts) ∈ made →
      findTLV tlvs tlvAuth = findTLV (signedTLVsOf w key' s c ts) tlvAuth →
      ∀ s', verifySignedTLVsOf w key tlvs client now = .ok s' →
        key' = key ∧ s = s' ∧ c = client) ∧
    ((∀ auth, findTLV tlvs tlvAuth = some auth → Mac.Unforged w.mac made key (auth.drop 8)) →
      ∀ s, verifySignedTLVsOf w key tlvs client now = .ok s →
        ∃ ts : Int64, (now.toInt - ts.toInt).natAbs ≤ 60 ∧ (key, signedMessage s client ts) ∈ made) := by
  have hiff : ∀ tlvs s, verifySignedTLVsOf w key tlvs client now = .ok s ↔
      findTLV tlvs tlvTunnel = some s ∧ ∃ ts : Int64, (now.toInt - ts.toInt).natAbs ≤ 60 ∧
        findTLV tlvs tlvAuth = some (signStream w key s client ts) := by
    intro tlvs s
    simp only [verifySignedTLVsOf_eq_ok_iff, inWindow_iff hnow]
  refine ⟨hiff tlvs, fun s ts => ?_, fun key' s c ts hc hmade hauth s' h => ?_, fun hforge s h => ?_⟩
  · rw [hiff]
    constructor
    · rintro ⟨-, ts', hwin, hauth⟩
      have htime : ts = ts' := by
        have hsame := congrArg (fun b => (Bytes.uint64 (b.take 8)).toInt64) (Option.some.inj hauth)
        simpa only [signStream_time] using hsame
      rwa [htime]
    · exact fun hwin => ⟨rfl, ts, hwin, rfl⟩
  · obtain ⟨-, ts', -, hauth'⟩ := (hiff tlvs s').mp h
    have hsame : signStream w key' s c ts = signStream w key s' client ts' :=
      Option.some.inj (hauth.symm.trans hauth')
    obtain ⟨hkey, hs, hcl, -⟩ := signStream_inj hideal hc hclient hmade hsame
    exact ⟨hkey, hs, hcl⟩
  · obtain ⟨-, ts, hwin, hauth⟩ := (hiff tlvs s).mp h
    refine ⟨ts, hwin, hforge _ hauth _ ?_⟩
    exact List.drop_left' (Bytes.digits_length 8 _)

def tellingWire (key msg : List UInt8) : Wire :=
  { plainWire with
    mac := fun k m => if k = key ∧ m = msg then List.replicate 32 1 else List.replicate 32 0
    mac_length := fun k m => by split <;> rfl }

theorem tellingWire_ideal (key msg : List UInt8) :
    Mac.Ideal (tellingWire key msg).mac {(key, msg)} where
  binding x hx y heq := by
    obtain rfl : x = (key, msg) := hx
    by_cases hy : y.1 = key ∧ y.2 = msg
    · exact (Prod.ext hy.1 hy.2).symm
    · simp [tellingWire, hy] at heq

def abWire : Wire := tellingWire [7] (signedMessage [97] [98] 100)

theorem signed_headers_authenticate_ab :
    verifySignedTLVsOf abWire [7] (signedTLVsOf abWire [7] [97] [98] 100) [98] 160 = .ok [97] ∧
      verifySignedTLVsOf abWire [7] (signedTLVsOf abWire [7] [97] [98] 100) [98] 161 ≠ .ok [97] := by
  have hideal : Mac.Ideal abWire.mac {([7], signedMessage [97] [98] 100)} := tellingWire_ideal _ _
  constructor
  · exact ((signed_headers_authenticate hideal [7] [] [98] (by decide) 160 (by decide)).2.1
      [97] 100).mpr (by decide)
  · exact fun h => absurd (((signed_headers_authenticate hideal [7] [] [98] (by decide) 161
      (by decide)).2.1 [97] 100).mp h) (by decide)

end L8Tunnel.Transport
