import PouchProv.SaeadFrames

/-!
# Keys and nonces

A block is sealed under a key, which the HKDF derives from the info string of its
session, and a nonce, which tells its pouch, its place and the role of its sender.
Info string and nonce together determine all of these (`Use.eq_of_same`), so no
two different blocks use the same pair.

What the client sealed for the device it does not accept from the device: the two
directions have different letters in their info strings.
-/

namespace KeyUse

open Bytes Saead Clients PouchFrame PouchBuild SaeadFrames

def hexDigit (c : Char) : Nat := if c ≤ '9' then c.toNat - 48 else c.toNat - 55

def hexValue (digits : List Char) : Nat := digits.foldl (fun n c => 16 * n + hexDigit c) 0

lemma hexDigit_digitChar : ∀ d < 16, hexDigit (Nat.digitChar d).toUpper = d := by decide

lemma hexValue_append_singleton (digits : List Char) (c : Char) :
    hexValue (digits ++ [c]) = 16 * hexValue digits + hexDigit c := by
  simp [hexValue]

lemma hexValue_toDigits (n : Nat) : hexValue ((Nat.toDigits 16 n).map Char.toUpper) = n := by
  induction n using Nat.strongRecOn with
  | ind n ih =>
    by_cases hn : n < 16
    · rw [Nat.toDigits_of_lt_base hn, List.map_singleton]
      simpa [hexValue] using hexDigit_digitChar n hn
    · have hsplit := Nat.toDigits_append_toDigits (b := 16) (n := n / 16) (d := n % 16)
        (by decide) (by omega) (by omega)
      rw [Nat.div_add_mod, Nat.toDigits_of_lt_base (Nat.mod_lt n (by decide))] at hsplit
      rw [← hsplit, List.map_append, List.map_singleton, hexValue_append_singleton,
        ih (n / 16) (by omega), hexDigit_digitChar _ (Nat.mod_lt n (by decide)), Nat.div_add_mod]

lemma hexValue_zeros (k : Nat) (digits : List Char) :
    hexValue (List.replicate k '0' ++ digits) = hexValue digits := by
  induction k with
  | zero => rfl
  | succ k ih => exact ih

theorem hex02_injective : Function.Injective hex02 := by
  intro n m h
  have hvalue : ∀ n, hexValue (hex02 n).toList = n := by
    intro n
    simp only [hex02, String.toList_ofList, hexValue_zeros, hexValue_toDigits]
  rw [← hvalue n, ← hvalue m, h]

def roleLetter : Role → Char
  | .device => 'D'
  | .server => 'S'

def algorithmLetter : Algorithm → Char
  | .chacha20Poly1305 => 'C'
  | .aesGcm => 'A'

lemma infoString_toList (initiator : Role) (sessionId : Bytes) (algorithm : Algorithm)
    (log : String) :
    (infoString initiator sessionId algorithm log).toList =
      'E' :: '0' :: ':' :: roleLetter initiator :: ':' :: (Base64.encode sessionId ++
        ':' :: 'C' :: algorithmLetter algorithm :: 'R' :: ':' :: log.toList) := by
  have hid : (base64 sessionId).toList = Base64.encode sessionId := String.toList_ofList
  unfold infoString
  simp only [String.toList_append, hid, List.append_assoc]
  cases initiator <;> cases algorithm <;> rfl

lemma append_colon_inj {xs ys xs' ys' : List Char} (hxs : ':' ∉ xs) (hxs' : ':' ∉ xs')
    (h : xs ++ ':' :: ys = xs' ++ ':' :: ys') : xs = xs' ∧ ys = ys' := by
  induction xs generalizing xs' with
  | nil =>
    cases xs' with
    | nil => exact ⟨rfl, List.tail_eq_of_cons_eq h⟩
    | cons c xs' => exact absurd (List.head_eq_of_cons_eq h ▸ List.mem_cons_self) hxs'
  | cons c xs ih =>
    cases xs' with
    | nil => exact absurd (List.head_eq_of_cons_eq h ▸ List.mem_cons_self) hxs
    | cons c' xs' =>
      obtain ⟨rfl, htail⟩ := List.cons.inj h
      obtain ⟨rfl, hys⟩ := ih (fun hm => hxs (List.mem_cons_of_mem _ hm))
        (fun hm => hxs' (List.mem_cons_of_mem _ hm)) htail
      exact ⟨rfl, hys⟩

lemma colon_not_mem_encode (b : Bytes) : ':' ∉ Base64.encode b := by
  have hdigits : ∀ n < 64, Base64.digit n ≠ ':' := by decide
  have hplain : ∀ c ∈ Base64.encode b, c ≠ ':' := Base64.forall_mem_encode hdigits (by decide) b
  exact fun hcolon => hplain ':' hcolon rfl

/-- An info string tells its initiator, session id, algorithm and block size exponent: no
character of the base64 alphabet is a colon. -/
theorem infoString_inj {initiator initiator' : Role} {sessionId sessionId' : Bytes}
    {algorithm algorithm' : Algorithm} {log log' : String}
    (h : infoString initiator sessionId algorithm log =
      infoString initiator' sessionId' algorithm' log') :
    initiator = initiator' ∧ sessionId = sessionId' ∧ algorithm = algorithm' ∧ log = log' := by
  have hchars := congrArg String.toList h
  rw [infoString_toList, infoString_toList] at hchars
  simp only [List.cons.injEq, true_and] at hchars
  obtain ⟨hrole, hrest⟩ := hchars
  obtain ⟨hid, htail⟩ := append_colon_inj (colon_not_mem_encode sessionId)
    (colon_not_mem_encode sessionId') hrest
  simp only [List.cons.injEq, true_and] at htail
  refine ⟨?_, Base64.encode_injective hid, ?_, String.toList_inj.mp htail.2⟩
  · cases initiator <;> cases initiator' <;> first | rfl | exact absurd hrole (by decide)
  · cases algorithm <;> cases algorithm' <;> first | rfl | exact absurd htail.1 (by decide)

/-- What a block is sealed under, apart from the secret that both ends share. -/
structure Use where
  initiator : Role
  sessionId : Bytes
  algorithm : Algorithm
  blockLog : Nat
  pouchId : Int
  blockIndex : Nat
  sender : Role
  deriving DecidableEq, Repr

def Use.info (u : Use) : String :=
  infoString u.initiator u.sessionId u.algorithm (hex02 u.blockLog)

def Use.nonce (py : Clients.Python) (u : Use) : Except Failure Bytes :=
  py.nonce (py.ofInt u.pouchId) u.blockIndex u.sender

section Separation

variable {py : Clients.Python}

lemma nonce_ofInt (lawful : py.Lawful) (pouchId : Int) (blockIndex : Nat) (role : Role) :
    py.nonce (py.ofInt pouchId) blockIndex role =
      if 0 ≤ pouchId ∧ pouchId < 2 ^ 16 ∧ blockIndex < 2 ^ 16 then
        .ok (be 2 pouchId.toNat ++ be 2 blockIndex ++ [role.code] ++ List.replicate 7 0)
      else .error .other := by
  rw [Clients.Python.nonce, lawful.pack_ofInt]
  by_cases hid : 0 ≤ pouchId ∧ pouchId < 2 ^ 16
  · by_cases hindex : blockIndex < 2 ^ 16
    · simp only [if_pos hid, if_pos hindex, if_pos (⟨hid.1, hid.2, hindex⟩ : _ ∧ _ ∧ _)]
    · simp only [if_pos hid, if_neg hindex, if_neg fun h : _ ∧ _ ∧ _ => hindex h.2.2]
  · simp only [if_neg hid, if_neg fun h : _ ∧ _ ∧ _ => hid ⟨h.1, h.2.1⟩]

lemma be_two_inj {n m : Nat} (hn : n < 2 ^ 16) (hm : m < 2 ^ 16) (h : be 2 n = be 2 m) : n = m := by
  have hn' := ofBe_be (show n < 256 ^ 2 by omega)
  have hm' := ofBe_be (show m < 256 ^ 2 by omega)
  rw [← hn', ← hm', h]

lemma code_inj {r r' : Role} (h : r.code = r'.code) : r = r' := by
  cases r <;> cases r' <;> first | rfl | exact absurd h (by decide)

/-- The nonce exists exactly for ids and indices of 16 bits, and tells both and the sender. -/
theorem Use.nonce_inj (lawful : py.Lawful) {u v : Use} {n : Bytes} (hu : u.nonce py = .ok n)
    (hv : v.nonce py = .ok n) :
    u.pouchId = v.pouchId ∧ u.blockIndex = v.blockIndex ∧ u.sender = v.sender := by
  rw [Use.nonce, nonce_ofInt lawful] at hu hv
  split at hu
  · rename_i hboundsu
    split at hv
    · rename_i hboundsv
      have hsame := (Except.ok.inj hu).trans (Except.ok.inj hv).symm
      obtain ⟨hfront, -⟩ := List.append_inj hsame (by simp)
      obtain ⟨hnumbers, hrole⟩ := List.append_inj hfront (by simp)
      obtain ⟨hid, hindex⟩ := List.append_inj hnumbers (by simp)
      have hid' := be_two_inj (by omega) (by omega) hid
      exact ⟨by omega, be_two_inj hboundsu.2.2 hboundsv.2.2 hindex,
        code_inj (List.head_eq_of_cons_eq hrole)⟩
    · cases hv
  · cases hu

theorem Use.eq_of_same (lawful : py.Lawful) {u v : Use} (info : u.info = v.info) {n : Bytes}
    (hu : u.nonce py = .ok n) (hv : v.nonce py = .ok n) : u = v := by
  obtain ⟨hinitiator, hid, halgorithm, hlog⟩ := infoString_inj info
  obtain ⟨hpouch, hindex, hsender⟩ := Use.nonce_inj lawful hu hv
  cases u
  cases v
  simp only [Use.mk.injEq]
  exact ⟨hinitiator, hid, halgorithm, hex02_injective hlog, hpouch, hindex, hsender⟩

lemma Use.nonce_isOk_iff (lawful : py.Lawful) (u : Use) :
    (∃ n, u.nonce py = .ok n) ↔ 0 ≤ u.pouchId ∧ u.pouchId < 2 ^ 16 ∧ u.blockIndex < 2 ^ 16 := by
  rw [Use.nonce, nonce_ofInt lawful]
  split
  · rename_i h
    exact ⟨fun _ => h, fun _ => ⟨_, rfl⟩⟩
  · rename_i h
    constructor
    · rintro ⟨_, hok⟩
      cases hok
    · exact fun h' => absurd h' h

end Separation

section Reflection

variable {f : Framing}

/-- The block was opened under the key of the session. -/
def OpenedUnder (f : Framing) (up : SessionState) (o : Opened) : Prop :=
  o.key = up.key ∧ o.algorithm = up.algorithm ∧
    f.openSealed o.algorithm o.key o.nonce o.sealed o.aad = .ok o.plaintext

lemma decryptUplinkBlock_opened (h : f.Header) (sealed : Bytes) (blockIndex : Nat)
    (prevTag : Bytes) {s : SaeadSession} {up : SessionState} (adopted : s.up = some up) :
    (decryptUplinkBlock f h sealed blockIndex prevTag s).2.up = some up ∧
      ∀ o ∈ (decryptUplinkBlock f h sealed blockIndex prevTag s).2.opened,
        o ∈ s.opened ∨ OpenedUnder f up o := by
  simp only [decryptUplinkBlock, adopted]
  split
  · exact ⟨adopted, fun o ho => Or.inl ho⟩
  · rename_i nonce _
    split
    · exact ⟨adopted, fun o ho => Or.inl ho⟩
    · rename_i plaintext hopen
      have hnew : ∀ o ∈ (⟨up.algorithm, up.key, nonce, sealed,
          if blockIndex > 0 then prevTag else [], plaintext⟩ : Opened) :: s.opened,
          o ∈ s.opened ∨ OpenedUnder f up o := by
        intro o ho
        rcases List.mem_cons.mp ho with rfl | ho
        · exact Or.inr ⟨rfl, rfl, hopen⟩
        · exact Or.inl ho
      split
      · exact ⟨rfl, hnew⟩
      · exact ⟨rfl, hnew⟩

lemma openBlocks_opened (h : f.Header) (n blockIndex : Nat) (prevTag data : Bytes)
    {s : SaeadSession} {up : SessionState} (adopted : s.up = some up) :
    ∀ o ∈ (openBlocks f h n blockIndex prevTag data s).2.opened,
      o ∈ s.opened ∨ OpenedUnder f up o := by
  induction n generalizing blockIndex prevTag data s with
  | zero => cases data <;> exact fun o ho => Or.inl ho
  | succ n ih =>
    cases data with
    | nil => exact fun o ho => Or.inl ho
    | cons b bs =>
      rw [openBlocks]
      split
      · exact fun o ho => Or.inl ho
      · rename_i sealed rest _
        have hblock := decryptUplinkBlock_opened h sealed blockIndex prevTag adopted
        split
        · rename_i e s' hrun
          rw [hrun] at hblock
          exact hblock.2
        · rename_i plaintext tag s' hrun
          rw [hrun] at hblock
          have hloop := ih (blockIndex + 1) tag rest hblock.1
          have hboth : ∀ o ∈ (openBlocks f h n (blockIndex + 1) tag rest s').2.opened,
              o ∈ s.opened ∨ OpenedUnder f up o := by
            intro o ho
            rcases hloop o ho with hearlier | hnew
            · exact hblock.2 o hearlier
            · exact Or.inr hnew
          split
          · rename_i e s'' hrest
            rw [hrest] at hboth
            exact hboth
          · rename_i payloads s'' hrest
            rw [hrest] at hboth
            exact hboth

/-- Whatever is parsed, and whether it ends in an error or not, every block that is opened is
opened under the key of a session that the device initiated. -/
theorem parseUplinkPouch_opened (data : Bytes) (s : SaeadSession) :
    ∀ o ∈ (parseUplinkPouch f data s).2.opened, o ∈ s.opened ∨ UplinkOpen f s o := by
  rw [parseUplinkPouch]
  split
  · exact fun o ho => Or.inl ho
  · rename_i h consumed _
    split
    · exact fun o ho => Or.inl ho
    · split
      · exact fun o ho => Or.inl ho
      · rename_i info _
        split
        · exact fun o ho => Or.inl ho
        · rename_i adopted hadopt
          obtain ⟨log, hadopted⟩ : ∃ log, adopted = { s with up := some ⟨deriveSessionKey f.prim
              s.serverPrivate s.devicePublic info.sessionId .device info.algorithm log,
              info.algorithm⟩ } := by
            rw [adoptUplink] at hadopt
            split at hadopt
            · cases hadopt
            · split at hadopt
              · cases hadopt
              · exact ⟨_, (Except.ok.inj hadopt).symm⟩
          have hopened := openBlocks_opened h (data.drop consumed).length 0 [] (data.drop consumed)
            (congrArg SaeadSession.up hadopted)
          have hall : ∀ o ∈ (openBlocks f h (data.drop consumed).length 0 [] (data.drop consumed)
              adopted).2.opened, o ∈ s.opened ∨ UplinkOpen f s o := by
            intro o ho
            rcases hopened o ho with hearlier | ⟨hkey, halgorithm, hopen⟩
            · rw [hadopted] at hearlier
              exact Or.inl hearlier
            · exact Or.inr ⟨hopen, info.sessionId, log, by rw [hkey, halgorithm]⟩
          simp only
          split
          · rename_i e s' hloop
            rw [hloop] at hall
            exact hall
          · rename_i payloads s' hloop
            rw [hloop] at hall
            exact hall

end Reflection

/-- Different info strings give different keys. -/
def HkdfInjective (prim : Primitives) : Prop :=
  ∀ ikm info info' length length',
    prim.hkdf ikm info length = prim.hkdf ikm info' length' → info = info'

/-- A sealed block opens under nothing but what it was sealed under. -/
def Ideal (prim : Primitives) (aeadSeal : AeadSeal) : Prop :=
  ∀ algorithm key nonce sealed aad plaintext,
    prim.aeadOpen algorithm key nonce sealed aad = some plaintext →
    ∀ algorithm' key' nonce' plaintext' aad',
      aeadSeal algorithm' key' nonce' plaintext' aad' = some sealed →
      algorithm = algorithm' ∧ key = key' ∧ nonce = nonce' ∧ plaintext = plaintext' ∧ aad = aad'

section NoReflection

variable {py : Clients.Python} {aeadSeal : AeadSeal}

lemma utf8_injective : Function.Injective utf8 := by
  intro s t h
  have hs := utf8Decode_utf8 s
  rw [h, utf8Decode_utf8 t] at hs
  exact (Option.some.inj hs).symm

/-- The two directions of a session never have a key in common. -/
lemma directions_differ (hkdf : HkdfInjective py.prim) (ourPrivate peerPublic : Bytes)
    (sessionId sessionId' : Bytes) (algorithm algorithm' : Algorithm) (log log' : String) :
    deriveSessionKey py.prim ourPrivate peerPublic sessionId .device algorithm log ≠
      deriveSessionKey py.prim ourPrivate peerPublic sessionId' .server algorithm' log' := by
  intro h
  have hinfo := utf8_injective (hkdf _ _ _ _ _ h)
  exact absurd (infoString_inj hinfo).1 (by decide)

/-- Every block of a chain is sealed under the key of the chain. -/
lemma sealBlocks_sealed {state : SessionState} {pouchId : Int} {role : Role} {blockIndex : Nat}
    {prevTag : Bytes} {plaintexts blocks : List Bytes}
    (h : sealBlocks py aeadSeal state pouchId role blockIndex prevTag plaintexts = some blocks) :
    ∀ sealed ∈ blocks, ∃ nonce plaintext aad,
      aeadSeal state.algorithm state.key nonce plaintext aad = some sealed := by
  induction plaintexts generalizing blockIndex prevTag blocks with
  | nil =>
    obtain rfl := Option.some.inj h
    simp
  | cons plaintext plaintexts ih =>
    obtain ⟨nonce, first, rest, rfl, -, -, hsealed, hrest⟩ := sealBlocks_cons h
    intro sealed hmem
    rcases List.mem_cons.mp hmem with rfl | hmem
    · exact ⟨nonce, plaintext, _, hsealed⟩
    · exact ih hrest sealed hmem

lemma downlinkBlocks_sealed {sender : Sender} {sessionId : Bytes} {entries : List OutEntry}
    {pouchId blockSize : Int} {blocks : List Bytes}
    (h : downlinkBlocks py aeadSeal sender sessionId entries pouchId blockSize = some blocks) :
    ∀ sealed ∈ blocks, ∃ log nonce plaintext aad,
      aeadSeal sender.algorithm (deriveSessionKey py.prim sender.serverPrivate sender.devicePublic
        sessionId .server sender.algorithm log) nonce plaintext aad = some sealed := by
  simp only [downlinkBlocks, Option.bind_eq_bind, Option.bind_eq_some_iff] at h
  obtain ⟨state, hstate, payloads, -, hblocks⟩ := h
  rw [newDownlink] at hstate
  split at hstate
  · obtain ⟨log, -, rfl⟩ := Option.map_eq_some_iff.mp hstate
    intro sealed hmem
    exact ⟨log, sealBlocks_sealed hblocks sealed hmem⟩
  · cases hstate

/-- A block of the downlink that comes back is not opened. -/
theorem reflected_not_opened (hkdf : HkdfInjective py.prim) (ideal : Ideal py.prim aeadSeal)
    {s : SaeadSession} {sender : Sender} (serverPrivate : sender.serverPrivate = s.serverPrivate)
    (devicePublic : sender.devicePublic = s.devicePublic) {sessionId : Bytes}
    {entries : List OutEntry} {pouchId blockSize : Int} {blocks : List Bytes}
    (built : downlinkBlocks py aeadSeal sender sessionId entries pouchId blockSize = some blocks)
    {o : Opened} (opened : UplinkOpen py.framing s o) : o.sealed ∉ blocks := by
  intro hmem
  obtain ⟨log, nonce, plaintext, aad, hsealed⟩ := downlinkBlocks_sealed built o.sealed hmem
  obtain ⟨sessionId', log', hkey⟩ := opened.key
  have hopen : py.prim.aeadOpen o.algorithm o.key o.nonce o.sealed o.aad = some o.plaintext := by
    have h := opened.opens
    simp only [Clients.Python.framing] at h
    split at h
    · cases h
    · rename_i hsome
      rw [hsome, Except.ok.inj h]
  obtain ⟨-, hsame, -⟩ := ideal _ _ _ _ _ _ hopen _ _ _ _ _ hsealed
  rw [hkey, serverPrivate, devicePublic] at hsame
  exact directions_differ hkdf _ _ _ _ _ _ _ _ hsame

end NoReflection

/-- No two different blocks are sealed under the same info string and nonce: these are equal only
if initiator, session id, algorithm, block size exponent, pouch id, block index and sender are.
An id or an index that does not fit 16 bits raises. With an injective HKDF and an ideal AEAD no
block of a downlink pouch is ever opened by the parser of uplink pouches of the same session,
whatever the data around it. -/
theorem keys_separated {py : Clients.Python} (lawful : py.Lawful) :
    (∀ (u v : Use) (n : Bytes), u.info = v.info → u.nonce py = .ok n → v.nonce py = .ok n →
      u = v) ∧
    (∀ u : Use, (∃ n, u.nonce py = .ok n) ↔
      0 ≤ u.pouchId ∧ u.pouchId < 2 ^ 16 ∧ u.blockIndex < 2 ^ 16) ∧
    ∀ aeadSeal : AeadSeal, HkdfInjective py.prim → Ideal py.prim aeadSeal →
      ∀ (s : SaeadSession) (sender : Sender) (sessionId : Bytes) (entries : List OutEntry)
        (pouchId blockSize : Int) (blocks : List Bytes) (data : Bytes),
      sender.serverPrivate = s.serverPrivate → sender.devicePublic = s.devicePublic →
      downlinkBlocks py aeadSeal sender sessionId entries pouchId blockSize = some blocks →
      ∀ o ∈ (parseUplinkPouch py.framing data s).2.opened, o ∈ s.opened ∨ o.sealed ∉ blocks := by
  refine ⟨?_, ?_, ?_⟩
  · intro u v n info hu hv
    exact Use.eq_of_same lawful info hu hv
  · exact Use.nonce_isOk_iff lawful
  · intro aeadSeal hkdf ideal s sender sessionId entries pouchId blockSize blocks data
      serverPrivate devicePublic built o ho
    rcases parseUplinkPouch_opened data s o ho with hearlier | hopened
    · exact Or.inl hearlier
    · exact Or.inr (reflected_not_opened hkdf ideal serverPrivate devicePublic built hopened)

/-- Everything that a block is sealed under, in one item. -/
def recordItem (algorithm : Algorithm) (key nonce plaintext aad : Bytes) : Cbor.Item :=
  .array [.bool (algorithm = .aesGcm), .bstr key, .bstr nonce, .bstr plaintext, .bstr aad]

def recordSeal : AeadSeal := fun algorithm key nonce plaintext aad =>
  let sealed := Cbor.encode (recordItem algorithm key nonce plaintext aad)
  if sealed.length < 2 ^ 64 then some sealed else none

/-- The parts of the item that `recordSeal` wrote. -/
def recorded (sealed : Bytes) : Option Cbor.Item :=
  (Cbor.read (2 * sealed.length) sealed).map Prod.fst

/-- Opens a block with the record of what it was sealed under. -/
def recordPrimitives : Primitives where
  exchange _ _ := []
  hkdf _ info _ := info
  aeadOpen algorithm key nonce sealed aad :=
    match recorded sealed with
    | some (.array [.prim kind _, .bstr key', .bstr nonce', .bstr plaintext, .bstr aad']) =>
      if kind = (if algorithm = .aesGcm then 21 else 20) ∧ key' = key ∧ nonce' = nonce ∧
        aad' = aad then some plaintext else none
    | _ => none

lemma recordItem_ok (algorithm : Algorithm) (key nonce plaintext aad : Bytes) :
    (recordItem algorithm key nonce plaintext aad).Ok :=
  ⟨Cbor.bool_ok _, trivial, trivial, trivial, trivial, trivial⟩

lemma recorded_of_sealed {algorithm : Algorithm} {key nonce plaintext aad sealed : Bytes}
    (h : recordSeal algorithm key nonce plaintext aad = some sealed) :
    recorded sealed = some (recordItem algorithm key nonce plaintext aad) := by
  simp only [recordSeal] at h
  split at h
  · rename_i hshort
    obtain rfl := Option.some.inj h
    have hread := Cbor.read_encode _ (recordItem_ok algorithm key nonce plaintext aad) hshort []
      (2 * (Cbor.encode (recordItem algorithm key nonce plaintext aad)).length) (Nat.le_refl _)
    rw [List.append_nil] at hread
    rw [recorded, hread]
    rfl
  · cases h

lemma record_ideal : Ideal recordPrimitives recordSeal := by
  intro algorithm key nonce sealed aad plaintext hopen algorithm' key' nonce' plaintext' aad'
    hsealed
  simp only [recordPrimitives, recorded_of_sealed hsealed, recordItem] at hopen
  cases algorithm <;> cases algorithm' <;>
    simp_all [Cbor.Item.bool]

lemma record_hkdf : HkdfInjective recordPrimitives := fun _ _ _ _ _ h => h

/-- The blocks of a downlink pouch behind a header of the device. -/
def reflectedPouch (blocks : List Bytes) : Bytes :=
  Cbor.encode (.array [.uint 1, .array [.uint 1, .array [.array [.bstr sampleSessionId], .uint 0,
    .uint 2, .uint 9, .bstr (List.replicate certRefLen 0)], .uint 3]]) ++ blocks.flatMap sized

theorem keys_separated_reflected :
    ∃ blocks, downlinkBlocks (referencePython recordPrimitives) recordSeal sampleSender
        sampleSessionId [sampleOut 7, sampleOut 8] 3 8 = some blocks ∧
      ∀ o ∈ (parseUplinkPouch (referencePython recordPrimitives).framing (reflectedPouch blocks)
        ⟨[], [], none, []⟩).2.opened, o ∈ [] ∨ o.sealed ∉ blocks := by
  obtain ⟨blocks, hblocks⟩ := Option.isSome_iff_exists.mp (show (downlinkBlocks
    (referencePython recordPrimitives) recordSeal sampleSender sampleSessionId
    [sampleOut 7, sampleOut 8] 3 8).isSome by decide)
  exact ⟨blocks, hblocks, (keys_separated (referencePython_lawful recordPrimitives)).2.2 recordSeal
    record_hkdf record_ideal ⟨[], [], none, []⟩ sampleSender sampleSessionId
    [sampleOut 7, sampleOut 8] 3 8 blocks (reflectedPouch blocks) rfl rfl hblocks⟩

end KeyUse
