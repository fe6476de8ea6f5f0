import PouchProv.MockDevice
import PouchProv.ScanFlow

/-!
# Trust on first use

The certificate exchange of `tofu.py`, `Tofu.kt` and `Tofu.swift`, over the
endpoints `info`, `server_cert` and `device_cert` of the mock device, and the
encrypted session of the Python client behind it. A client pushes its certificate
when the device stores none or one with another serial number, and takes the
certificate of the device as it comes.

The three clients differ in how they read the info map and in how their libraries
write a serial number; the comparison ignores leading zeros. Certificates are
opaque: `X509` says what the libraries read in them.
-/

namespace Tofu

open Bytes Cbor Sar SarSenders MockSar MockDevice PouchFrame SaeadFrames Saead Runs
open Clients (CborValue Python)
open ClientReader (Texts)
open CborRoundTrip (Decodes Keyed decode_encode kotlin_takes swift_takes)
open ClientResponses (Dicts)
open ForwardCompat (Client)
open ScanFlow (Means allMean_entry means_text)

/-- The number of bits that a number needs. -/
def bitLength (n : Nat) : Nat := if n = 0 then 0 else n.log2 + 1

/-- `number.to_bytes((number.bit_length() + 7) // 8 or 1, "big")` -/
def serialBytes (n : Nat) : Bytes := be (max ((bitLength n + 7) / 8) 1) n

/-- `BigInteger.toByteArray`, with room for the sign. -/
def bigIntegerBytes (n : Nat) : Bytes := be (bitLength n / 8 + 1) n

/-- `normalize_serial` and `normalizeSerial` -/
def normalizeSerial (serial : Bytes) : Bytes :=
  let stripped := serial.dropWhile (· = 0)
  if stripped = [] then [0] else stripped

lemma lt_two_pow_bitLength (n : Nat) : n < 2 ^ bitLength n := by
  rw [bitLength]
  split
  · omega
  · exact Nat.lt_log2_self

lemma lt_pow_of_bitLength {n w : Nat} (room : bitLength n ≤ 8 * w) : n < 256 ^ w := by
  have hpow : (256 : Nat) ^ w = 2 ^ (8 * w) := (Nat.pow_mul 2 8 w).symm
  rw [hpow]
  exact Nat.lt_of_lt_of_le (lt_two_pow_bitLength n) (Nat.pow_le_pow_right (by decide) room)

lemma ofBe_serialBytes (n : Nat) : ofBe (serialBytes n) = n :=
  ofBe_be (lt_pow_of_bitLength (by omega))

lemma ofBe_bigIntegerBytes (n : Nat) : ofBe (bigIntegerBytes n) = n :=
  ofBe_be (lt_pow_of_bitLength (by omega))

lemma stripped_head (serial : Bytes) : ∀ x ∈ (serial.dropWhile (· = 0)).head?, x ≠ 0 := by
  intro x hx
  have hnot := List.head?_dropWhile_not (fun x : UInt8 => decide (x = 0)) serial
  rw [Option.mem_def.mp hx] at hnot
  simpa using hnot

lemma ofBe_normalizeSerial (serial : Bytes) : ofBe (normalizeSerial serial) = ofBe serial := by
  have hstripped := ofBe_dropWhile_zero serial
  simp only [normalizeSerial]
  split
  · rename_i hnil
    rw [hnil] at hstripped
    exact hstripped
  · exact hstripped

/-- Two serials have one normal form exactly when they write one number. -/
theorem normalizeSerial_eq_iff (a b : Bytes) :
    normalizeSerial a = normalizeSerial b ↔ ofBe a = ofBe b := by
  constructor
  · intro h
    rw [← ofBe_normalizeSerial a, ← ofBe_normalizeSerial b, h]
  · intro h
    have hstripped : a.dropWhile (· = 0) = b.dropWhile (· = 0) := by
      refine eq_of_ofBe_eq (stripped_head a) (stripped_head b) ?_
      rw [ofBe_dropWhile_zero, ofBe_dropWhile_zero, h]
    simp only [normalizeSerial, hstripped]

/-- `GattInfo`; nothing reads its flags. -/
structure GattInfo (N : Type) where
  flags : N
  serverCertSerial : Bytes

namespace Python

variable (py : Clients.Python) (dicts : Dicts py)

def decodeInfo (data : Bytes) : Option (GattInfo py.Obj) := do
  let (obj, _) ← py.loads data
  let flags ← ClientResponses.Python.getItem py dicts obj "flags"
  let snr ← ClientResponses.Python.get py dicts obj "server_cert_snr"
  let serial ← match snr with
    | some v => py.bytes v
    | none => some []
  return ⟨flags, serial⟩

end Python

namespace Kotlin

/-- A value that is not a map fails the cast; entries of other types count as absent. -/
def decodeInfo (t : Texts) (data : Bytes) : Option (GattInfo Int) := do
  let obj ← (ClientReader.decode (ClientReader.Kotlin.rules t) data).toOption
  let map ← ClientResponses.mapValue obj
  let flags := (ClientResponses.Kotlin.get map "flags").int64Value.getD 0
  let serial := (ClientResponses.bytesValue
    (ClientResponses.Kotlin.get map "server_cert_snr")).getD []
  return ⟨ClientReader.narrow flags, serial⟩

end Kotlin

namespace Swift

/-- One turn of the loop over the pairs: a later pair of a key replaces an earlier one. -/
def takePair (info : GattInfo Int) (pair : CborValue × CborValue) : GattInfo Int :=
  match ClientResponses.textValue pair.1 with
  | some "flags" => { info with flags := (ClientResponses.Swift.intValue pair.2).getD 0 }
  | some "server_cert_snr" =>
    { info with serverCertSerial := (ClientResponses.bytesValue pair.2).getD [] }
  | _ => info

def decodeInfo (t : Texts) (data : Bytes) : Option (GattInfo Int) := do
  let obj ← (ClientReader.decode (ClientReader.Swift.rules t) data).toOption
  let map ← ClientResponses.mapValue obj
  return map.foldl takePair ⟨0, []⟩

end Swift

/-- The serial that a client reads in the info map. -/
def infoSerial (c : Client) (data : Bytes) : Option Bytes :=
  match c with
  | .python py dicts => (Python.decodeInfo py dicts data).map GattInfo.serverCertSerial
  | .kotlin t => (Kotlin.decodeInfo t data).map GattInfo.serverCertSerial
  | .swift t => (Swift.decodeInfo t data).map GattInfo.serverCertSerial

/-- What the libraries read in a certificate, the bytes in which the one of Swift gives a serial
number, and the public key of a private key. -/
structure X509 where
  serialNumber : Bytes → Option Nat
  publicKey : Bytes → Option Bytes
  swiftSerial : Nat → Bytes
  swiftSerial_number : ∀ n, ofBe (swiftSerial n) = n
  publicOf : Bytes → Bytes

/-- A key pair and its self-signed certificate. A serial number has at most 20 bytes. -/
structure Identity (x : X509) where
  privateKey : Bytes
  certDer : Bytes
  serial : Nat
  numbered : x.serialNumber certDer = some serial
  short : serial < 256 ^ 20
  own : x.publicKey certDer = some (x.publicOf privateKey)

/-- `cert_serial` and `certSerial` -/
def certSerial (x : X509) (c : Client) (der : Bytes) : Option Bytes :=
  (x.serialNumber der).map fun n =>
    match c with
    | .python _ _ => serialBytes n
    | .kotlin _ => bigIntegerBytes n
    | .swift _ => x.swiftSerial n

section Device

variable {x : X509} {σ : Type}

/-- The serial as mbedtls keeps it, with the sign byte. -/
def mbedtlsSerial (n : Nat) : Bytes :=
  match serialBytes n with
  | [] => []
  | b :: bs => if b &&& 0x80 ≠ 0 then 0 :: b :: bs else b :: bs

def infoItem (serial : Bytes) : Item :=
  .map [.tstr (utf8 "flags"), .uint 0, .tstr (utf8 "server_cert_snr"), .bstr serial]

/-- `_info_payload` -/
def infoPayload (x : X509) (stored : Option Bytes) : Option Bytes :=
  match stored with
  | none => some (encode (infoItem []))
  | some der => (x.serialNumber der).map fun n => encode (infoItem (mbedtlsSerial n))

/-- `_store_server_cert`. The certificate is kept even where its key cannot be read. -/
def storeServerCert (device : Identity x) (algorithm : Algorithm) (m : Mock σ) (der : Bytes) :
    Mock σ :=
  let m := { m with storedServerCert := some der }
  match x.publicKey der with
  | none => m
  | some pub => { m with saead := some ⟨device.privateKey, pub, algorithm, 9⟩ }

/-- The connection: the sender of the client, and the bounds of the SAR loops. -/
structure Link where
  tx : SarSender
  fuel : Nat
  patience : Nat

/-- `read_info`, up to the serial. -/
def readInfo (l : Link) (c : Client) (m : Mock σ) : Option Bytes :=
  match infoPayload x m.storedServerCert with
  | none => none
  | some payload =>
    match sarRead clientWindow mockFrag payload l.fuel l.patience with
    | .returned data => infoSerial c data
    | _ => none

/-- The window of `_DeviceSarReceiver`, by default. -/
def mockWindow : SarReceiver := ⟨3, by decide⟩

/-- What a SAR write of the certificate does: whether it returns, the certificates that the
device receives, and the device after it. -/
def pushServerCert (device : Identity x) (algorithm : Algorithm) (l : Link) (me : Identity x)
    (m : Mock σ) : Option Unit × List Bytes × Mock σ :=
  let r := sarWrite l.tx mockWindow.window me.certDer l.fuel
  let m := r.2.delivered.foldl (storeServerCert device algorithm) m
  match r.1 with
  | .returned () => (some (), r.2.delivered, m)
  | _ => (none, r.2.delivered, m)

def readDeviceCert (device : Identity x) (l : Link) : Option Bytes :=
  match sarRead clientWindow mockFrag device.certDer l.fuel l.patience with
  | .returned data => some data
  | _ => none

/-- `not info.has_server_cert or theirs != ours` -/
def Differs (theirs ours : Bytes) : Prop :=
  theirs = [] ∨ normalizeSerial theirs ≠ normalizeSerial ours

instance (theirs ours : Bytes) : Decidable (Differs theirs ours) :=
  inferInstanceAs (Decidable (_ ∨ _))

/-- What an exchange does: the certificate that the client returns, the certificates that the
device receives, and the device after it. -/
structure Exchange (σ : Type) where
  returned : Option Bytes
  received : List Bytes
  device : Mock σ

def exchangeCerts (device : Identity x) (algorithm : Algorithm) (l : Link) (c : Client)
    (me : Identity x) (m : Mock σ) : Exchange σ :=
  match readInfo (x := x) l c m, certSerial x c me.certDer with
  | some theirs, some ours =>
    if Differs theirs ours then
      match pushServerCert device algorithm l me m with
      | (none, received, m) => ⟨none, received, m⟩
      | (some (), received, m) => ⟨readDeviceCert device l, received, m⟩
    else ⟨readDeviceCert device l, [], m⟩
  | _, _ => ⟨none, [], m⟩

end Device

/-- The CBOR reader of the client reads the info map as what it is. -/
def ReadsInfo : Client → Prop
  | .python py dicts => ∀ serial : Bytes, serial.length ≤ 21 →
      ∃ o n, py.loads (encode (infoItem serial)) = some (o, n) ∧ Means dicts (infoItem serial) o
  | .kotlin t => Decodes t
  | .swift t => Decodes t

section Info

def infoValue (serial : Bytes) : CborValue :=
  .map [(.text "flags", .int 0), (.text "server_cert_snr", .bytes serial)]

lemma infoValue_keyed (serial : Bytes) : Keyed (infoValue serial) :=
  ⟨by simp [ClientReader.DistinctKeys, ClientReader.sameKey], ⟨_, rfl⟩, trivial, ⟨_, rfl⟩, trivial,
    trivial⟩

lemma infoValue_item (serial : Bytes) : ClientCbor.item (infoValue serial) = infoItem serial := rfl

lemma infoItem_length {serial : Bytes} (short : serial.length ≤ 21) :
    (encode (infoItem serial)).length = 25 + serial.length := by
  have hflags : (utf8 "flags").length = 5 := by decide
  have hsnr : (utf8 "server_cert_snr").length = 15 := by decide
  have hhead : headLength serial.length = 1 := if_pos (by omega)
  simp only [infoItem, encode, encodeAll, List.length_append, head_length, hflags, hsnr, hhead]
  simp [headLength]
  omega

theorem infoSerial_payload {c : Client} (reads : ReadsInfo c) {serial : Bytes}
    (short : serial.length ≤ 21) : infoSerial c (encode (infoItem serial)) = some serial := by
  have hlength := infoItem_length short
  have hshort : (encode (ClientCbor.item (infoValue serial))).length < 2 ^ 31 := by
    rw [infoValue_item, hlength]
    omega
  cases c with
  | python py dicts =>
    obtain ⟨o, n, hloads, es, hentries, hmean⟩ := reads serial short
    obtain ⟨k, v, es, rfl, hk, hv, hmean⟩ := allMean_entry hmean
    obtain ⟨k', v', es, rfl, hk', hv', -⟩ := allMean_entry hmean
    have hflags := means_text hk
    have hsnr := means_text hk'
    have hbytes : py.bytes v' = some serial := hv'
    simp [infoSerial, Python.decodeInfo, hloads, ClientResponses.Python.getItem,
      ClientResponses.Python.get, hentries, hflags, hsnr, hbytes]
  | kotlin t =>
    have hread := decode_encode (kotlin_takes reads) (infoValue_keyed serial) hshort
    rw [infoValue_item] at hread
    simp only [infoSerial, Kotlin.decodeInfo, hread]
    rfl
  | swift t =>
    have hread := decode_encode (swift_takes reads) (infoValue_keyed serial) hshort
    rw [infoValue_item] at hread
    simp only [infoSerial, Swift.decodeInfo, hread]
    rfl

lemma serialBytes_ne_nil (n : Nat) : serialBytes n ≠ [] := by
  intro h
  have hlength := congrArg List.length h
  rw [serialBytes, be_length, List.length_nil] at hlength
  omega

lemma mbedtlsSerial_cases (n : Nat) :
    mbedtlsSerial n = serialBytes n ∨ mbedtlsSerial n = 0 :: serialBytes n := by
  obtain ⟨b, bs, hbytes⟩ := List.exists_cons_of_ne_nil (serialBytes_ne_nil n)
  rw [mbedtlsSerial, hbytes]
  simp only
  split
  · exact .inr rfl
  · exact .inl rfl

lemma ofBe_mbedtlsSerial (n : Nat) : ofBe (mbedtlsSerial n) = n := by
  obtain h | h := mbedtlsSerial_cases n
  · rw [h, ofBe_serialBytes]
  · rw [h, ofBe_zero_cons, ofBe_serialBytes]

lemma mbedtlsSerial_ne_nil (n : Nat) : mbedtlsSerial n ≠ [] := by
  obtain h | h := mbedtlsSerial_cases n
  · rw [h]
    exact serialBytes_ne_nil n
  · simp [h]

lemma bitLength_le {n w : Nat} (small : n < 2 ^ w) : bitLength n ≤ w := by
  rw [bitLength]
  split
  · exact Nat.zero_le _
  · rename_i hn
    exact (Nat.log2_lt hn).mpr small

lemma mbedtlsSerial_short {n : Nat} (short : n < 256 ^ 20) : (mbedtlsSerial n).length ≤ 21 := by
  have hbits : bitLength n ≤ 160 := bitLength_le short
  have hserial : (serialBytes n).length ≤ 20 := by
    rw [serialBytes, be_length]
    omega
  obtain h | h := mbedtlsSerial_cases n
  · rw [h]
    omega
  · rw [h, List.length_cons]
    omega

end Info

section Exchange

variable {x : X509} {σ : Type} {device : Identity x} {algorithm : Algorithm} {l : Link} {c : Client}
  {me : Identity x} {m : Mock σ}

/-- Both certificates go through a SAR cycle. -/
structure Carries (device : Identity x) (l : Link) (me : Identity x) : Prop where
  fuel : 255 < l.fuel
  pushed : (l.tx.frags me.certDer).length ≤ 255
  device_ne_nil : device.certDer ≠ []
  device_few : (slices mockFrag device.certDer).length ≤ 255

/-- The number of the certificate that the device stores. -/
def storedNumber (x : X509) (m : Mock σ) : Option Nat := m.storedServerCert.bind x.serialNumber

/-- What the device stores can be used: the certificate has a serial number of at most 20 bytes,
and its key, where it has one, is the one of the device. -/
structure Usable (device : Identity x) (algorithm : Algorithm) (m : Mock σ) : Prop where
  numbered : ∀ der, m.storedServerCert = some der → ∃ n < 256 ^ 20, x.serialNumber der = some n
  keyed : ∀ der pub, m.storedServerCert = some der → x.publicKey der = some pub →
    m.saead = some ⟨device.privateKey, pub, algorithm, 9⟩

/-- The serial that the device shows for the number of the certificate that it stores. -/
def shown : Option Nat → Bytes
  | none => []
  | some n => mbedtlsSerial n

lemma infoPayload_stored (usable : Usable device algorithm m) :
    (shown (storedNumber x m)).length ≤ 21 ∧
      infoPayload x m.storedServerCert = some (encode (infoItem (shown (storedNumber x m)))) := by
  rw [storedNumber]
  cases hstored : m.storedServerCert with
  | none => exact ⟨Nat.zero_le _, rfl⟩
  | some der =>
    obtain ⟨n, hshort, hnumber⟩ := usable.numbered der hstored
    rw [Option.bind_some, hnumber]
    exact ⟨mbedtlsSerial_short hshort, by rw [infoPayload, hnumber]; rfl⟩

lemma slices_single {frag : Nat} (positive : 0 < frag) {data : Bytes} (small : data.length ≤ frag) :
    (slices frag data).length ≤ 255 := by
  have hcount : (data.length + frag - 1) / frag < 2 :=
    Nat.div_lt_of_lt_mul (by omega)
  rw [slices, List.length_map, List.length_range]
  omega

lemma readInfo_stored (reads : ReadsInfo c) (fuel : 255 < l.fuel)
    (usable : Usable device algorithm m) :
    readInfo (x := x) l c m = some (shown (storedNumber x m)) := by
  obtain ⟨hshort, hpayload⟩ := infoPayload_stored usable
  have hlength := infoItem_length hshort
  have hne : encode (infoItem (shown (storedNumber x m))) ≠ [] := by
    intro h
    rw [h, List.length_nil] at hlength
    omega
  have hfew : (slices mockFrag (encode (infoItem (shown (storedNumber x m))))).length ≤ 255 :=
    slices_single (by decide) (by rw [hlength, mockFrag, headerLen]; omega)
  have hread := sarRead_exact (by decide) clientWindow hne hfew (Nat.lt_of_le_of_lt hfew fuel)
    l.patience
  simp only [readInfo, hpayload, hread, infoSerial_payload reads hshort]

lemma certSerial_number (c : Client) (me : Identity x) :
    ∃ ours, certSerial x c me.certDer = some ours ∧ ofBe ours = me.serial := by
  refine ⟨_, by rw [certSerial, me.numbered]; rfl, ?_⟩
  cases c with
  | python py dicts => exact ofBe_serialBytes me.serial
  | kotlin t => exact ofBe_bigIntegerBytes me.serial
  | swift t => exact x.swiftSerial_number me.serial

/-- The client pushes unless the device stores a certificate with the same number. -/
lemma differs_iff {ours : Bytes} (number : ofBe ours = me.serial) (stored : Option Nat) :
    Differs (shown stored) ours ↔ stored ≠ some me.serial := by
  rw [Differs, Ne, normalizeSerial_eq_iff, number]
  cases stored with
  | none => simp [shown]
  | some n => simp [shown, mbedtlsSerial_ne_nil, ofBe_mbedtlsSerial]

lemma pushServerCert_ok (carries : Carries device l me) :
    pushServerCert device algorithm l me m =
      (some (), [me.certDer], storeServerCert device algorithm m me.certDer) := by
  obtain ⟨hreturned, hdelivered⟩ := sarWrite_exact l.tx mockWindow carries.pushed
    (Nat.lt_of_le_of_lt carries.pushed carries.fuel)
  simp only [pushServerCert, hreturned, hdelivered, List.foldl_cons, List.foldl_nil]

lemma readDeviceCert_ok (carries : Carries device l me) :
    readDeviceCert device l = some device.certDer := by
  have hread := sarRead_exact (by decide) clientWindow carries.device_ne_nil carries.device_few
    (Nat.lt_of_le_of_lt carries.device_few carries.fuel) l.patience
  simp only [readDeviceCert, hread]

/-- The exchange returns the certificate of the device. It leaves the device as it was if that
stores a certificate with the number of the client's, and pushes the certificate otherwise. -/
theorem exchangeCerts_spec (reads : ReadsInfo c) (carries : Carries device l me)
    (usable : Usable device algorithm m) :
    exchangeCerts device algorithm l c me m =
      if storedNumber x m = some me.serial then ⟨some device.certDer, [], m⟩
      else ⟨some device.certDer, [me.certDer], storeServerCert device algorithm m me.certDer⟩ := by
  obtain ⟨ours, hours, hnumber⟩ := certSerial_number c me
  have hdiffers := differs_iff hnumber (storedNumber x m)
  simp only [exchangeCerts, readInfo_stored reads carries.fuel usable, hours,
    pushServerCert_ok carries, readDeviceCert_ok carries]
  by_cases hsame : storedNumber x m = some me.serial
  · rw [if_neg fun h => hdiffers.mp h hsame, if_pos hsame]
  · rw [if_pos (hdiffers.mpr hsame), if_neg hsame]

/-- The device stores the certificate of the client, and holds the key in it. -/
structure Trusts (device : Identity x) (algorithm : Algorithm) (m : Mock σ) (me : Identity x) :
    Prop where
  stored : m.storedServerCert = some me.certDer
  keyed : m.saead = some ⟨device.privateKey, x.publicOf me.privateKey, algorithm, 9⟩

/-- A certificate with the number of the client's is the client's. -/
def Numbered (der : Bytes) (me : Identity x) : Prop :=
  x.serialNumber der = some me.serial → der = me.certDer

instance (der : Bytes) (me : Identity x) : Decidable (Numbered der me) :=
  inferInstanceAs (Decidable (_ → _))

lemma Trusts.usable (trusts : Trusts device algorithm m me) : Usable device algorithm m := by
  constructor
  · intro der hstored
    obtain rfl : me.certDer = der := Option.some.inj (trusts.stored.symm.trans hstored)
    exact ⟨me.serial, me.short, me.numbered⟩
  · intro der pub hstored hpub
    obtain rfl : me.certDer = der := Option.some.inj (trusts.stored.symm.trans hstored)
    obtain rfl : x.publicOf me.privateKey = pub := Option.some.inj (me.own.symm.trans hpub)
    exact trusts.keyed

/-- Where the numbers agree, the device trusts the client already. -/
lemma Usable.trusts (usable : Usable device algorithm m)
    (numbered : ∀ der, m.storedServerCert = some der → Numbered der me)
    (same : storedNumber x m = some me.serial) : Trusts device algorithm m me := by
  obtain ⟨der, hstored, hnumber⟩ := Option.bind_eq_some_iff.mp same
  obtain rfl : der = me.certDer := numbered der hstored hnumber
  exact ⟨hstored, usable.keyed _ _ hstored me.own⟩

lemma storeServerCert_trusts (device : Identity x) (algorithm : Algorithm) (m : Mock σ)
    (me : Identity x) :
    Trusts device algorithm (storeServerCert device algorithm m me.certDer) me := by
  constructor
  · simp [storeServerCert, me.own]
  · simp [storeServerCert, me.own]

/-- After the exchange the device trusts the client that made it. -/
lemma exchangeCerts_trusts (reads : ReadsInfo c) (carries : Carries device l me)
    (usable : Usable device algorithm m)
    (numbered : ∀ der, m.storedServerCert = some der → Numbered der me) :
    Trusts device algorithm (exchangeCerts device algorithm l c me m).device me := by
  rw [exchangeCerts_spec reads carries usable]
  by_cases hsame : storedNumber x m = some me.serial
  · rw [if_pos hsame]
    exact usable.trusts numbered hsame
  · rw [if_neg hsame]
    exact storeServerCert_trusts device algorithm m me

lemma exchangeCerts_returned (reads : ReadsInfo c) (carries : Carries device l me)
    (usable : Usable device algorithm m) :
    (exchangeCerts device algorithm l c me m).returned = some device.certDer := by
  rw [exchangeCerts_spec reads carries usable]
  split <;> rfl

lemma exchangeCerts_rpc (reads : ReadsInfo c) (carries : Carries device l me)
    (usable : Usable device algorithm m) :
    (exchangeCerts device algorithm l c me m).device.responses = m.responses ∧
      (exchangeCerts device algorithm l c me m).device.defer = m.defer ∧
      (exchangeCerts device algorithm l c me m).device.app = m.app := by
  rw [exchangeCerts_spec reads carries usable]
  simp only [storeServerCert, me.own]
  split
  · exact ⟨rfl, rfl, rfl⟩
  · exact ⟨rfl, rfl, rfl⟩

end Exchange

section Visits

variable {x : X509} {σ : Type}

/-- A client that connects to the device. -/
structure Visit (x : X509) where
  client : Client
  link : Link
  me : Identity x

def visit (device : Identity x) (algorithm : Algorithm) (m : Mock σ) (v : Visit x) : Mock σ :=
  (exchangeCerts device algorithm v.link v.client v.me m).device

/-- The visit pairs the device and the visitor: each of them holds the certificate of the other,
the device also the key in it, and the device receives a certificate exactly if it did not
store one with the number of the visitor's. -/
structure Pairs (device : Identity x) (algorithm : Algorithm) (m : Mock σ) (v : Visit x) :
    Prop where
  returned : (exchangeCerts device algorithm v.link v.client v.me m).returned = some device.certDer
  trusts : Trusts device algorithm (visit device algorithm m v) v.me
  received : (exchangeCerts device algorithm v.link v.client v.me m).received =
    if storedNumber x m = some v.me.serial then [] else [v.me.certDer]
  kept : storedNumber x m = some v.me.serial → visit device algorithm m v = m

lemma visit_pairs {device : Identity x} {algorithm : Algorithm} {m : Mock σ} {v : Visit x}
    (reads : ReadsInfo v.client) (carries : Carries device v.link v.me)
    (usable : Usable device algorithm m)
    (numbered : ∀ der, m.storedServerCert = some der → Numbered der v.me) :
    Pairs device algorithm m v where
  returned := exchangeCerts_returned reads carries usable
  trusts := exchangeCerts_trusts reads carries usable numbered
  received := by
    rw [exchangeCerts_spec reads carries usable]
    split <;> rfl
  kept hsame := by
    rw [visit, exchangeCerts_spec reads carries usable, if_pos hsame]

/-- From a device with any usable certificate or none, for every sequence of clients of any of
the three kinds: every exchange pairs the device with the client that makes it, provided that
no two of the certificates, the stored one included, share a serial number. -/
theorem exchange_pairs_every_visitor (device : Identity x) (algorithm : Algorithm) {m : Mock σ}
    (usable : Usable device algorithm m) (visits : List (Visit x))
    (able : ∀ v ∈ visits, ReadsInfo v.client ∧ Carries device v.link v.me)
    (numbered : ∀ v ∈ visits, (∀ der, m.storedServerCert = some der → Numbered der v.me) ∧
      ∀ w ∈ visits, Numbered w.me.certDer v.me) :
    Each (visit device algorithm) (Pairs device algorithm) m visits := by
  have hadmitted : Each (visit device algorithm) (fun _ v => v ∈ visits) m visits :=
    each_of_mem m fun _ hv => hv
  -- What the device stores stays usable, and numbered apart from every visitor.
  let Open (m : Mock σ) : Prop := Usable device algorithm m ∧
    ∀ v ∈ visits, ∀ der, m.storedServerCert = some der → Numbered der v.me
  have hpairs : ∀ (m : Mock σ) (v : Visit x), Open m → v ∈ visits → Pairs device algorithm m v :=
    fun m v hopen hv =>
      visit_pairs (able v hv).1 (able v hv).2 hopen.1 (hopen.2 v hv)
  refine each_of_each (fun m v hopen hv => ?_) hpairs
    ⟨usable, fun v hv => (numbered v hv).1⟩ hadmitted
  have htrusts := (hpairs m v hopen hv).trusts
  refine ⟨htrusts.usable, fun w hw der hstored => ?_⟩
  obtain rfl : v.me.certDer = der := Option.some.inj (htrusts.stored.symm.trans hstored)
  exact (numbered w hw).2 v hv

/-- Certificates of a serial number and a key, that of the private key itself. -/
def sampleX509 : X509 where
  serialNumber der := der.head?.map UInt8.toNat
  publicKey der := some (der.drop 1)
  swiftSerial := serialBytes
  swiftSerial_number := ofBe_serialBytes
  publicOf key := key

def sampleIdentity (serial key : UInt8) : Identity sampleX509 :=
  ⟨[key], [serial, key], serial.toNat, rfl, Nat.lt_trans serial.toNat_lt (by decide), rfl⟩

def sampleLink : Link := ⟨sampleWorld.session.tx, 256, 0⟩

lemma sample_carries (serial key : UInt8) :
    Carries (sampleIdentity 1 2) sampleLink (sampleIdentity serial key) := by
  refine ⟨by decide, ?_, by decide, by decide⟩
  simp [SarSender.frags, slices, sampleIdentity, sampleLink, sampleWorld, SarSender.frag,
    headerLen]

/-- The phone comes twice, the tablet in between. -/
def sampleVisits : List (Visit sampleX509) :=
  [⟨.kotlin ClientResponses.referenceTexts, sampleLink, sampleIdentity 3 4⟩,
    ⟨.swift ClientResponses.referenceTexts, sampleLink, sampleIdentity 200 5⟩,
    ⟨.kotlin ClientResponses.referenceTexts, sampleLink, sampleIdentity 3 4⟩]

/-- A device that another client has paired with. -/
def samplePaired : Mock Unit := ⟨some ⟨[2], [6], .aesGcm, 9⟩, some [7, 6], 0, [], ()⟩

lemma samplePaired_trusts :
    Trusts (sampleIdentity 1 2) .aesGcm samplePaired (sampleIdentity 7 6) := ⟨rfl, rfl⟩

theorem exchange_pairs_every_visitor_three :
    Each (visit (sampleIdentity 1 2) .aesGcm) (Pairs (sampleIdentity 1 2) .aesGcm) samplePaired
      sampleVisits := by
  have hnumbered : ∀ v ∈ sampleVisits, Numbered [7, 6] v.me ∧
      ∀ w ∈ sampleVisits, Numbered w.me.certDer v.me := by decide
  refine exchange_pairs_every_visitor (sampleIdentity 1 2) .aesGcm samplePaired_trusts.usable
    sampleVisits ?_ ?_
  · simp only [sampleVisits, List.mem_cons, List.not_mem_nil, or_false, forall_eq_or_imp, forall_eq]
    exact ⟨⟨CborRoundTrip.referenceTexts_decodes, sample_carries 3 4⟩,
      ⟨CborRoundTrip.referenceTexts_decodes, sample_carries 200 5⟩,
      ⟨CborRoundTrip.referenceTexts_decodes, sample_carries 3 4⟩⟩
  · intro v hv
    refine ⟨fun der hstored => ?_, (hnumbered v hv).2⟩
    obtain rfl : [7, 6] = der := Option.some.inj hstored
    exact (hnumbered v hv).1

end Visits

section Sessions

variable {x : X509} {σ : Type} {py : Clients.Python}

/-- A visit of the Python client, with its requests. The reference to its certificate is the
start of a hash. -/
structure Stay (x : X509) where
  link : Link
  me : Identity x
  certRef : Bytes
  reqs : List Req

/-- What the visits share: the libraries, the handler and the bounds of `Setup`, the objects of
the info map, the empty device id of a new session, and the identity of the device. -/
structure Site (x : X509) (py : Clients.Python) (σ : Type) where
  setup : Setup py σ
  dicts : Dicts py
  noId : py.Obj
  device : Identity x

/-- `secure_session`: the exchange, and a session with the keys of both certificates. -/
def secureSession (site : Site x py σ) (m : Mock σ) (v : Stay x) : Option (World py σ) × Mock σ :=
  match exchangeCerts site.device .chacha20Poly1305 v.link (.python py site.dicts) v.me m with
  | ⟨none, _, m⟩ => (none, m)
  | ⟨some der, _, m⟩ =>
    match x.publicKey der with
    | none => (none, m)
    | some pub =>
      let crypto : Crypto :=
        ⟨⟨v.me.privateKey, pub, none, []⟩, v.certRef, .chacha20Poly1305, 9⟩
      (some ⟨⟨v.link.tx, some crypto, site.noId, 512⟩, m⟩, m)

/-- A visit: the session is secured, then the requests are made. -/
def stay (site : Site x py σ) (m : Mock σ) (v : Stay x) :
    Mock σ × List (Except Failure Bytes) :=
  match secureSession site m v with
  | (none, m) => (m, [])
  | (some w, _) =>
    ((v.reqs.foldl (fun w q => (step site.setup w q).1) w).device,
      outputs (step site.setup) w v.reqs)

/-- The session that a visit starts with. -/
def secured (site : Site x py σ) (v : Stay x) (m : Mock σ) : World py σ :=
  ⟨⟨v.link.tx, some ⟨⟨v.me.privateKey, x.publicOf site.device.privateKey, none, []⟩, v.certRef,
    .chacha20Poly1305, 9⟩, site.noId, 512⟩,
    (exchangeCerts site.device .chacha20Poly1305 v.link (.python py site.dicts) v.me m).device⟩

/-- ECDH gives the same secret to both ends. -/
def Ecdh (x : X509) (py : Clients.Python) : Prop :=
  ∀ a b, py.prim.exchange a (x.publicOf b) = py.prim.exchange b (x.publicOf a)

variable {site : Site x py σ} {m : Mock σ} {v : Stay x}

lemma secureSession_ok (reads : ReadsInfo (.python py site.dicts))
    (carries : Carries site.device v.link v.me)
    (usable : Usable site.device .chacha20Poly1305 m) :
    secureSession site m v = (some (secured site v m), (secured site v m).device) := by
  have hreturned := exchangeCerts_returned reads carries usable
  rw [secureSession, secured]
  revert hreturned
  rcases exchangeCerts site.device .chacha20Poly1305 v.link (.python py site.dicts) v.me m
    with ⟨returned, received, m'⟩
  rintro (rfl : returned = _)
  simp only [site.device.own]

lemma secured_paired (ecdh : Ecdh x py)
    (trusts : Trusts site.device .chacha20Poly1305 (secured site v m).device v.me) :
    Paired py (secured site v m).session.saead (secured site v m).device.saead := by
  rw [trusts.keyed]
  exact .sealed (ecdh v.me.privateKey site.device.privateKey) rfl

/-- One visit: its requests are answered, and the device is left to the next one. -/
lemma stay_spec (sound : Sound site.setup) (ecdh : Ecdh x py)
    (reads : ReadsInfo (.python py site.dicts)) (carries : Carries site.device v.link v.me)
    (usable : Usable site.device .chacha20Poly1305 m)
    (numbered : ∀ der, m.storedServerCert = some der → Numbered der v.me)
    (idle : m.responses = [] ∧ m.defer < pollAttempts)
    (carried : Each (fun w q => (step site.setup w q).1) (Carried site.setup) (secured site v m)
      v.reqs) :
    (stay site m v).2 = (answersTo site.setup.handler m.app v.reqs).map outcome ∧
      (stay site m v).1.app = finalApp site.setup.handler m.app v.reqs ∧
      ((stay site m v).1.responses = [] ∧ (stay site m v).1.defer < pollAttempts) ∧
      Trusts site.device .chacha20Poly1305 (stay site m v).1 v.me := by
  have htrusts := exchangeCerts_trusts reads carries usable numbered
  obtain ⟨hresponses, hdefer, happ⟩ := exchangeCerts_rpc (m := m) reads carries usable
  have hpaired := secured_paired ecdh htrusts
  obtain ⟨houtputs, hfinal⟩ := outputs_simulated (step_refines sound) hpaired carried
  obtain ⟨hsaead, hstored⟩ := run_keeps sound hpaired carried
  have hpending : (secured site v m).rpc.pending = [] := hresponses.trans idle.1
  have hready : (secured site v m).rpc.defer < pollAttempts :=
    Nat.lt_of_le_of_lt (Nat.le_of_eq hdefer) idle.2
  have hrpcApp : (secured site v m).rpc.app = m.app := happ
  obtain ⟨hanswers, hempty, hidle, hstate⟩ :=
    Rpc.outputs_idle site.setup.handler v.reqs hpending hready
  rw [hrpcApp] at hanswers hstate
  rw [← hfinal] at hempty hidle hstate
  rw [stay, secureSession_ok reads carries usable]
  exact ⟨houtputs.trans hanswers, hstate, ⟨hempty, hidle⟩, hstored.trans htrusts.stored,
    hsaead.trans htrusts.keyed⟩

section Sample

abbrev sampleDicts : Dicts (Clients.referencePython zeroTagPrimitives) :=
  ForwardCompat.itemDicts _ _ _

lemma sample_text (s : String) : sampleDicts.text (.tstr (utf8 s)) = some s :=
  Clients.utf8Decode_utf8 s

lemma sampleDicts_reads : ReadsInfo (.python _ sampleDicts) := by
  intro serial short
  have hlength := infoItem_length short
  have hok : (infoItem serial).Ok :=
    ⟨by simp, trivial, Nat.two_pow_pos 64, trivial, trivial, trivial⟩
  have hloads := Clients.referencePython_loads zeroTagPrimitives hok
    (Nat.lt_of_le_of_lt (Nat.le_of_eq hlength) (by omega)) []
  rw [List.append_nil] at hloads
  refine ⟨infoItem serial, _, hloads, _, rfl, ⟨_, sample_text _, rfl⟩, ⟨fun i => ?_, rfl⟩,
    ⟨_, sample_text _, rfl⟩, rfl, trivial⟩
  have hzero := (Clients.referencePython_lawful zeroTagPrimitives).equalsInt_ofInt 0 i
  exact hzero.trans (decide_eq_decide.mpr eq_comm)

def sampleSite : Site sampleX509 (Clients.referencePython zeroTagPrimitives) Nat :=
  ⟨sampleSetup, sampleDicts, .tstr [], sampleIdentity 1 2⟩

def sampleStay : Stay sampleX509 := ⟨sampleLink, sampleIdentity 3 4, [], [sampleReq 7]⟩

def sampleMock : Mock Nat := ⟨none, none, 1, [], 0⟩

lemma sampleMock_usable : Usable (sampleIdentity 1 2) .chacha20Poly1305 sampleMock :=
  ⟨fun _ h => (nomatch h), fun _ _ h => (nomatch h)⟩

lemma sample_secured : secured sampleSite sampleStay sampleMock =
    ⟨⟨sampleLink.tx, some ⟨⟨[4], [2], none, []⟩, [], .chacha20Poly1305, 9⟩, .tstr [], 512⟩,
      ⟨some ⟨[2], [4], .chacha20Poly1305, 9⟩, some [3, 4], 1, [], 0⟩⟩ := by
  have hspec : exchangeCerts (sampleIdentity 1 2) .chacha20Poly1305 sampleLink
      (.python _ sampleDicts) (sampleIdentity 3 4) sampleMock = _ :=
    exchangeCerts_spec sampleDicts_reads (sample_carries 3 4) sampleMock_usable
  exact congrArg (World.mk _) (congrArg Exchange.device hspec)

lemma sample_carried_secured : Carried sampleSetup (secured sampleSite sampleStay sampleMock)
    (sampleReq 7) := by
  rw [sample_secured]
  refine ⟨⟨_, rfl, by decide⟩, ?_, sample_down, sample_up⟩
  rintro entries hentries
  obtain rfl | rfl := List.mem_pair.mp hentries
  · exact ⟨_, rfl, by decide, by decide⟩
  · exact ⟨_, rfl, by decide, by decide⟩

end Sample

end Sessions

end Tofu
