/-
KernelTestkit.Api.NumberTheorems — what the numbers of the exchange become.

`get_parameters` assigns `valueint`, an `int64_t`, to fields of two widths.
The nine `int` fields are an `IntField`, the four `uint64_t` fields a
`Quantity`, each with its key and its member of the test.

* `numbers_reduced` — a field holds the integer the peer sent reduced to its
  width, which is that integer exactly when the field can represent it.
* `quantity_survives_iff` — a quantity of a client arrives exactly when it
  is below 2^63 and has a 53-bit significand, or is 2^63 - 1: the number
  2^63 is saturated to it.
-/
import KernelTestkit.Lib.Significand
import KernelTestkit.Api.ParametersTheorems

namespace KernelTestkit.Api

open KernelTestkit.Lib
open KernelTestkit.Net

/-! ## The fields -/

/-- The `int` fields `get_parameters` sets from a number. -/
inductive IntField where
  | serverAffinity
  | duration
  | mss
  | numStreams
  | socketBufsize
  | blksize
  | pacingTimer
  | burst
  | tos
  deriving DecidableEq, Repr

/-- The `uint64_t` fields. -/
inductive Quantity where
  | bytes
  | blocks
  | rate
  | fqrate
  deriving DecidableEq, Repr

/-- The member a field is set from. -/
def IntField.key : IntField → CString
  | .serverAffinity => lit "server_affinity"
  | .duration => lit "time"
  | .mss => lit "MSS"
  | .numStreams => lit "parallel"
  | .socketBufsize => lit "window"
  | .blksize => lit "len"
  | .pacingTimer => lit "pacing_timer"
  | .burst => lit "burst"
  | .tos => lit "TOS"

/-- What a test holds in a field. -/
def IntField.value (t : IperfTest) : IntField → Int32
  | .serverAffinity => t.serverAffinity
  | .duration => t.duration
  | .mss => t.settings.mss
  | .numStreams => t.numStreams
  | .socketBufsize => t.settings.socketBufsize
  | .blksize => t.settings.blksize
  | .pacingTimer => t.settings.pacingTimer
  | .burst => t.settings.burst
  | .tos => t.settings.tos

def Quantity.key : Quantity → CString
  | .bytes => lit "num"
  | .blocks => lit "blockcount"
  | .rate => lit "bandwidth"
  | .fqrate => lit "fqrate"

def Quantity.value (t : IperfTest) : Quantity → UInt64
  | .bytes => t.settings.bytes
  | .blocks => t.settings.blocks
  | .rate => t.settings.rate
  | .fqrate => t.settings.fqrate

/-- `get_parameters` sets every `int` field from the member with its key. -/
theorem IntField.value_decoded (j : CJson) (t : IperfTest) (field : IntField) :
    field.value (decoded j t) = intItem j field.key (field.value t) := by
  cases field <;> rfl

/-- And so every quantity. -/
theorem Quantity.value_decoded (j : CJson) (t : IperfTest) (quantity : Quantity) :
    quantity.value (decoded j t) = uint64Item j quantity.key (quantity.value t) := by
  cases quantity <;> rfl

/-! ## Decoding -/

/-- The document has the number `v` under `name`, exactly in its `valueint`. -/
def Sends (doc : CJson) (name : CString) (v : Int) : Prop :=
  ∃ n : Int64, getObjectItem doc name = some (.number v n) ∧ n.toInt = v

theorem intItem_of_sends {doc : CJson} {name : CString} {v : Int} (field : Int32)
    (h : Sends doc name v) : (intItem doc name field).toInt = v.bmod (2 ^ 32) := by
  obtain ⟨n, hitem, rfl⟩ := h
  rw [intItem, hitem]
  exact n.toInt_toInt32

theorem toNat_toUInt64 (n : Int64) : (n.toUInt64.toNat : Int) = n.toInt % 2 ^ 64 := by
  rw [← Int64.toNat_toBitVec, ← Int64.toInt_toBitVec, BitVec.toInt_eq_toNat_bmod, Int.bmod_def]
  have hlt := n.toBitVec.isLt
  split <;> omega

theorem uint64Item_of_sends {doc : CJson} {name : CString} {v : Int} (field : UInt64)
    (h : Sends doc name v) : ((uint64Item doc name field).toNat : Int) = v % 2 ^ 64 := by
  obtain ⟨n, hitem, rfl⟩ := h
  rw [uint64Item, hitem]
  exact toNat_toUInt64 n

/-- A 32-bit reduction changes nothing exactly inside the range of `int`. -/
theorem bmod_eq_self_iff (v : Int) : v.bmod (2 ^ 32) = v ↔ -2 ^ 31 ≤ v ∧ v < 2 ^ 31 := by
  constructor
  · intro h
    have hle := Int.le_bmod (x := v) (m := 2 ^ 32) (by decide)
    have hlt := Int.bmod_lt (x := v) (m := 2 ^ 32) (by decide)
    omega
  · rintro ⟨hle, hlt⟩
    exact Int.bmod_eq_of_le (by omega) (by omega)

/-- A 64-bit reduction of an `int64_t` changes nothing exactly when it is not
negative. -/
theorem emod_eq_self_iff {v : Int} (hv : v < 2 ^ 63) : v % 2 ^ 64 = v ↔ 0 ≤ v := by
  omega

/-- **Decoding of numbers**: `get_parameters` accepts every number a document
has, and a field it sets holds the number reduced to the width of the field.
That is the number exactly when the field can represent it. -/
theorem numbers_reduced (json : CjsonLib) (t t' : IperfTest) (doc : CJson) (sys sys₁ sys' : Sys)
    (r : Int32) (hread : jsonRead json t.ctrlSck sys = .ok (some doc, sys₁))
    (hget : getParameters json t sys = .ok (r, t', sys')) :
    r = 0 ∧
    (∀ (field : IntField) (v : Int), Sends doc field.key v →
      (field.value t').toInt = v.bmod (2 ^ 32) ∧
      ((field.value t').toInt = v ↔ -2 ^ 31 ≤ v ∧ v < 2 ^ 31)) ∧
    (∀ (quantity : Quantity) (v : Int), Sends doc quantity.key v →
      ((quantity.value t').toNat : Int) = v % 2 ^ 64 ∧
      (((quantity.value t').toNat : Int) = v ↔ 0 ≤ v)) := by
  obtain ⟨hr, _, rfl⟩ := getParameters_of_delivered hread hget
  refine ⟨hr, ?_, ?_⟩
  · intro field v hsends
    have hvalue := intItem_of_sends (field.value t) hsends
    rw [← field.value_decoded] at hvalue
    exact ⟨hvalue, by rw [hvalue]; exact bmod_eq_self_iff v⟩
  · intro quantity v hsends
    have hvalue := uint64Item_of_sends (quantity.value t) hsends
    rw [← quantity.value_decoded] at hvalue
    obtain ⟨n, _, rfl⟩ := hsends
    exact ⟨hvalue, by rw [hvalue]; exact emod_eq_self_iff n.toInt_lt⟩

/-- A document that asks for 2^32 streams. -/
def manyStreams : CJson :=
  .object [(lit "parallel", .number (2 ^ 32 : Int) (Int64.ofInt (2 ^ 32)))]

theorem sends_manyStreams : Sends manyStreams IntField.numStreams.key (2 ^ 32) :=
  ⟨_, rfl, rfl⟩

theorem decodable_manyStreams : Decodable manyStreams (newServer 0) :=
  ⟨stringIfFound_of_none rfl, stringIfFound_of_none rfl, stringIfFound_of_none rfl,
    fun hsender => absurd rfl hsender⟩

/-- A server asked for 2^32 streams has none. -/
theorem numbers_reduced_many_streams :
    (IntField.numStreams.value (decoded manyStreams (newServer 0))).toInt
      = (2 ^ 32 : Int).bmod (2 ^ 32) := by
  obtain ⟨sys', hread, hget⟩ := getParameters_single
    (lit "\x7b\"parallel\":4294967296\x7d") (by decide) decodable_manyStreams
  obtain ⟨_, hints, _⟩ := numbers_reduced _ _ _ _ _ _ _ _ hread hget
  exact (hints .numStreams _ sends_manyStreams).1

/-- It is accepted, and the field does not hold the number that was sent. -/
theorem many_streams_not_rejected : ∃ (json : CjsonLib) (t t' : IperfTest) (doc : CJson)
    (sys sys₁ sys' : Sys), jsonRead json t.ctrlSck sys = .ok (some doc, sys₁) ∧
    getParameters json t sys = .ok (0, t', sys') ∧
    Sends doc IntField.numStreams.key (2 ^ 32) ∧ IntField.numStreams.value t' = 0 := by
  obtain ⟨sys', hread, hget⟩ := getParameters_single
    (lit "\x7b\"parallel\":4294967296\x7d") (by decide) decodable_manyStreams
  exact ⟨_, _, _, _, _, _, _, hread, hget, sends_manyStreams, by decide +kernel⟩

/-! ## The wire -/

/-- **Exactness of a `double`**: it holds the integers with a 53-bit
significand. -/
theorem roundDouble_eq_self_iff (n : Nat) : roundDouble n = n ↔ Fits 53 n := by
  rcases Nat.lt_or_ge n (2 ^ 53) with hlt | hge
  · exact ⟨fun _ => fits_of_lt hlt, fun _ => roundDouble_of_le (Nat.le_of_lt hlt)⟩
  have hround : roundDouble n = if ulp 53 n < 2 * (n % ulp 53 n) ∨
      (ulp 53 n = 2 * (n % ulp 53 n) ∧ n / ulp 53 n % 2 = 1)
      then (n / ulp 53 n + 1) * ulp 53 n else n / ulp 53 n * ulp 53 n := by
    rw [roundDouble, if_neg (by omega)]
    rfl
  have hpos := ulp_pos 53 n
  rw [fits_iff_ulp_dvd (by omega), hround]
  constructor
  · intro h
    split at h
    · exact ⟨n / ulp 53 n + 1, by rw [Nat.mul_comm, h]⟩
    · exact ⟨n / ulp 53 n, by rw [Nat.mul_comm, h]⟩
  · intro hdvd
    have hmod : n % ulp 53 n = 0 := Nat.mod_eq_zero_of_dvd hdvd
    rw [hmod, if_neg (by omega), Nat.div_mul_cancel hdvd]

/-- What a quantity becomes on its way through a number: rounded, then
saturated. -/
theorem toNat_createNumber (n : Nat) : (createNumber n).valueint.toUInt64.toNat
    = if 2 ^ 63 ≤ roundDouble n then 2 ^ 63 - 1 else roundDouble n := by
  have hdouble : toDouble n = roundDouble n := by
    cases n with
    | zero => rfl
    | succ n =>
        rw [toDouble, Int.natAbs_natCast, Int.sign_natCast_of_ne_zero n.succ_ne_zero, Int.one_mul]
  rw [createNumber, hdouble, CJson.valueint, saturate]
  by_cases h : 2 ^ 63 ≤ roundDouble n
  · rw [if_pos (by omega), if_pos h]
    rfl
  · rw [if_neg (by omega), if_neg (by omega), if_neg h]
    have hmod := toNat_toUInt64 (Int64.ofInt (roundDouble n))
    rw [Int64.toInt_ofInt_of_le (by omega) (by omega)] at hmod
    omega

/-- A quantity that arrives as it was sent. -/
def SurvivesWire (v : UInt64) : Prop :=
  (v.toNat < 2 ^ 63 ∧ Fits 53 v.toNat) ∨ v.toNat = 2 ^ 63 - 1

theorem toUInt64_createNumber_eq_iff (v : UInt64) :
    (createNumber v.toNat).valueint.toUInt64 = v ↔ SurvivesWire v := by
  rw [← UInt64.toNat_inj, toNat_createNumber]
  constructor
  · intro h
    split at h
    · exact Or.inr h.symm
    · rename_i hlt
      exact Or.inl ⟨by omega, (roundDouble_eq_self_iff _).mp h⟩
  · rintro (⟨hlt, hfits⟩ | hmax)
    · rw [(roundDouble_eq_self_iff _).mpr hfits, if_neg (by omega)]
    · rw [hmax]
      decide

theorem Quantity.row_mem (quantity : Quantity) (protocol : Protocol) (t : IperfTest) :
    (decide (quantity.value t ≠ 0), quantity.key, createNumber (quantity.value t).toNat)
      ∈ parameterRows protocol t := by
  cases quantity with
  | bytes => exact Api.row_mem protocol t 4 rfl
  | blocks => exact Api.row_mem protocol t 5 rfl
  | rate => exact Api.row_mem protocol t 12 rfl
  | fqrate => exact Api.row_mem protocol t 13 rfl

/-- **Quantities on the wire**: after the object of a client is decoded, the
server holds a quantity of the client that is not zero rounded to a `double`
and saturated, and holds it unchanged exactly when it survives both. -/
theorem quantity_survives_iff (json : CjsonLib) (client server server' : IperfTest)
    (doc : CJson) (sys sys₁ sys' : Sys) (quantity : Quantity)
    (hsent : sendParametersObject client = .ok doc)
    (hread : jsonRead json server.ctrlSck sys = .ok (some doc, sys₁))
    (hget : getParameters json server sys = .ok (0, server', sys'))
    (hne : quantity.value client ≠ 0) :
    (quantity.value server').toNat = (if 2 ^ 63 ≤ roundDouble (quantity.value client).toNat
      then 2 ^ 63 - 1 else roundDouble (quantity.value client).toNat) ∧
    (quantity.value server' = quantity.value client ↔ SurvivesWire (quantity.value client)) := by
  cases hprotocol : client.protocol with
  | none => simp [sendParametersObject, hprotocol] at hsent
  | some protocol =>
      obtain rfl : sentObject protocol client = doc := by
        simpa [sendParametersObject, hprotocol] using hsent
      obtain ⟨_, _, rfl⟩ := getParameters_of_delivered hread hget
      have hitem := getObjectItem_sent (quantity.row_mem protocol client)
      rw [quantity.value_decoded, uint64Item, hitem, if_pos (decide_eq_true hne)]
      exact ⟨toNat_createNumber _, toUInt64_createNumber_eq_iff _⟩

/-- A TCP client that asks for a rate. -/
def ratedClient (rate : UInt64) : IperfTest :=
  { iperfNewTest with
    protocol := some (tcpProtocol 0)
    settings := { zeroSettings with rate := rate } }

/-- A rate of 10^9 arrives. -/
theorem quantity_survives_gigabit :
    Quantity.rate.value (decoded (sentObject (tcpProtocol 0) (ratedClient 1000000000))
      (newServer 0)) = 1000000000 := by
  have hdecodable :
      Decodable (sentObject (tcpProtocol 0) (ratedClient 1000000000)) (newServer 0) :=
    decodable_sent rfl rfl
  obtain ⟨sys', hread, hget⟩ := getParameters_single
    (lit "\x7b\"tcp\":true,\"parallel\":0,\"bandwidth\":1000000000\x7d") (by decide) hdecodable
  exact (quantity_survives_iff _ (ratedClient 1000000000) (newServer 0) _ _ _ _ _ .rate rfl
    hread hget (by decide)).2.mpr (Or.inl ⟨by decide, 1000000000, 0, by decide, rfl⟩)

/-- A rate of 2^53 + 1 is rounded to 2^53. -/
theorem odd_rate_rounded : ∃ (json : CjsonLib) (client server server' : IperfTest) (doc : CJson)
    (sys sys₁ sys' : Sys), sendParametersObject client = .ok doc ∧
    jsonRead json server.ctrlSck sys = .ok (some doc, sys₁) ∧
    getParameters json server sys = .ok (0, server', sys') ∧
    client.settings.rate = 9007199254740993 ∧ server'.settings.rate = 9007199254740992 := by
  let client := ratedClient 9007199254740993
  have hdecodable : Decodable (sentObject (tcpProtocol 0) client) (newServer 0) :=
    decodable_sent rfl rfl
  obtain ⟨sys', hread, hget⟩ := getParameters_single
    (lit "\x7b\"tcp\":true,\"parallel\":0,\"bandwidth\":9007199254740992\x7d") (by decide)
    hdecodable
  exact ⟨_, client, newServer 0, _, _, _, _, _, rfl, hread, hget, rfl, by decide +kernel⟩

end KernelTestkit.Api
