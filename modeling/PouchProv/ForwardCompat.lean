import PouchProv.CborRoundTrip
import PouchProv.Extensions
import PouchProv.PythonResponses

/-!
# Extended responses

A response that a client has accepted it accepts, with what was there before, when
it is extended as the protocol allows, exactly if its reader reads the extension
and, in the status of the credentials, every new key is a kind whose entry does
not take the place of an older one (`responses_forward_compatible_iff`).
-/

namespace ForwardCompat

open Bytes Cbor ClientReader ClientResponses Status
open Clients (CborValue intOf listOf utf8Decode utf8Decode_utf8 utf8_of_utf8Decode)
open CredStore (CredKind)
open ProvTypes (StaState)

/-- The map in a status of the credentials. -/
def Shape.statusMap {V K : Type} (s : Shape V K) (x : V) : Option (List (V × V)) :=
  (s.list x).bind fun xs => xs[2]?.bind s.dict

/-- Every entry of the extended map gives a kind and a length, and no kind gets another length. -/
structure Harmless {E : Type} (entry : E → Option (CredKind × Int)) (kvs kvs' : List E) :
    Prop where
  converts : ∀ kv ∈ kvs', (entry kv).isSome
  last : ∀ kind n, LastIs entry kvs kind n → LastIs entry kvs' kind n

/-- What was decoded before is still there. -/
def Keeps {N S : Type} : (d : Decoder) → d.Value N S → d.Value N S → Prop
  | .credStatus, v, v' => ∀ kind n, v kind = some n → v' kind = some n
  | _, v, v' => v' = v

lemma keeps_of_eq {N S : Type} {d : Decoder} {v v' : d.Value N S} (h : v' = v) : Keeps d v v' := by
  subst h
  cases d with
  | credStatus => exact fun _ _ hn => hn
  | _ => rfl

/-- The status map of an extension converts to one that keeps the kinds. -/
lemma exists_keeps_iff {E : Type} {entry : E → Option (CredKind × Int)} {kvs kvs' : List E}
    {entries : List (CredKind × Int)} (h : kvs.mapM entry = some entries) :
    (∃ entries', kvs'.mapM entry = some entries' ∧
      ∀ kind n, associate entries kind = some n → associate entries' kind = some n) ↔
      Harmless entry kvs kvs' := by
  constructor
  · rintro ⟨entries', h', hkeeps⟩
    refine ⟨exists_mapM_iff.mp ⟨_, h'⟩, fun kind n hlast => ?_⟩
    rw [← associate_eq_some_iff h']
    exact hkeeps kind n ((associate_eq_some_iff h).mpr hlast)
  · rintro ⟨hconverts, hlast⟩
    obtain ⟨entries', h'⟩ := exists_mapM_iff.mpr hconverts
    refine ⟨entries', h', fun kind n hn => ?_⟩
    rw [associate_eq_some_iff h']
    exact hlast kind n ((associate_eq_some_iff h).mp hn)

lemma statusMap_extended {V K : Type} [DecidableEq K] {s : Shape V K} {x x' : V}
    (ext : s.Extends .credStatus x x') {kvs : List (V × V)} (h : s.statusMap x = some kvs) :
    ∃ kvs', s.statusMap x' = some kvs' := by
  obtain ⟨xs, xs', hxs, hxs', hsame⟩ := ext
  rw [Shape.statusMap, hxs, Option.bind_some] at h
  obtain ⟨y, hy, hkvs⟩ := Option.bind_eq_some_iff.mp h
  obtain ⟨hnone, -⟩ | ⟨_, y', hy₁, hy', hmap⟩ := sameMessage_get hsame (show 2 < 3 by decide)
  · exact absurd (hnone.symm.trans hy) (by simp)
  · obtain rfl := Option.some.inj (hy₁.symm.trans hy)
    have hstatus : s.statusMap x' = s.dict y' := by
      rw [Shape.statusMap, hxs', Option.bind_some, hy', Option.bind_some]
    rw [hstatus]
    rcases sameMap_cases hmap with rfl | ⟨_, kvs', -, hdict', -⟩
    · exact ⟨kvs, hkvs⟩
    · exact ⟨kvs', hdict'⟩

/-- The status maps that a reader finds in the data. -/
def HarmlessRead (r : Rules String) (c : Taking) (data data' : Bytes) : Prop :=
  ∀ w rest w' rest' kvs kvs', Reads r data w rest → Reads r data' w' rest' →
    valueShape.statusMap w = some kvs → valueShape.statusMap w' = some kvs' →
    Harmless c.statusEntry kvs kvs'

section Apps

variable {c : Taking} {d : Decoder} {w w' : CborValue}

lemma field_same {α : Type} {view : CborValue → Option α} {names : List String}
    {kvs kvs' : List (CborValue × CborValue)}
    (h : ∀ name ∈ names, lookup name kvs = lookup name kvs') {name : String}
    (hname : name ∈ names) : field view kvs name = field view kvs' name := by
  rw [field, field, h name hname]

lemma info_extended {kvs kvs' : List (CborValue × CborValue)}
    (same : ∀ name ∈ keys .ver, lookup name kvs = lookup name kvs') {y : VersionInfo Int String}
    (h : InfoYields c kvs y) : InfoYields c kvs' y where
  proto := (field_same same (by decide)).symm.trans h.proto
  caps := (field_same same (by decide)).symm.trans h.caps
  blockSize := (field_same same (by decide)).symm.trans h.blockSize
  lib := (field_same same (by decide)).symm.trans h.lib
  popRequired := by rw [← field_same same (by decide), h.popRequired]

lemma entry_extended {e e' : CborValue} (same : valueShape.SameMap (keys .scanResults) e e')
    {y : ScanEntry Int} (h : ∃ kvs, e = .map kvs ∧ EntryYields c kvs y) :
    ∃ kvs, e' = .map kvs ∧ EntryYields c kvs y := by
  rcases sameMap_lookup same with rfl | ⟨kvs, kvs', rfl, rfl, hlookup⟩
  · exact h
  · obtain ⟨_, ⟨⟩, hy⟩ := h
    exact ⟨kvs', rfl, (field_same hlookup (by decide)).symm.trans hy.ssid,
      (field_same hlookup (by decide)).symm.trans hy.bssid,
      (field_same hlookup (by decide)).symm.trans hy.channel,
      (field_same hlookup (by decide)).symm.trans hy.rssi,
      (field_same hlookup (by decide)).symm.trans hy.auth⟩

lemma entries_extended {es es' : List CborValue}
    (same : List.Forall₂ (valueShape.SameMap (keys .scanResults)) es es')
    {ys : List (ScanEntry Int)}
    (h : List.Forall₂ (fun e y => ∃ kvs, e = .map kvs ∧ EntryYields c kvs y) es ys) :
    List.Forall₂ (fun e y => ∃ kvs, e = .map kvs ∧ EntryYields c kvs y) es' ys := by
  induction same generalizing ys with
  | nil => exact h
  | cons hsame _ ih =>
    obtain ⟨y, ys', hy, hys, rfl⟩ := List.forall₂_cons_left_iff.mp h
    exact .cons (entry_extended hsame hy) (ih hys)

lemma detail_extended {state : StaState} {kvs kvs' : List (CborValue × CborValue)}
    (same : ∀ name ∈ keys .configStatus, lookup name kvs = lookup name kvs') {y : WifiStatus Int}
    (h : DetailYields c state (some (.map kvs)) y) :
    DetailYields c state (some (.map kvs')) y := by
  obtain ⟨ip4, hip4, ssid, hssid, hy⟩ := h
  refine ⟨ip4, (field_same same (by decide)).symm.trans hip4,
    ssid, (field_same same (by decide)).symm.trans hssid, ?_⟩
  rw [← field_same same (show "rssi" ∈ keys .configStatus by decide)]
  exact hy

/-- What the decoders of the apps take from behind the head is there in an extended message. -/
lemma yields_extended {op status : CborValue} {rest rest' : List CborValue}
    (h : valueShape.SameMessage d (op :: status :: rest) (op :: status :: rest'))
    (hd : d ≠ .credStatus) {y : d.Value Int String} (hy : Yields c d rest y) :
    Yields c d rest' y := by
  cases d with
  | ver =>
    obtain ⟨kvs, hat, hinfo⟩ := hy
    rcases map_element h (show 2 < 3 by decide) rfl with hsame | ⟨kvs, kvs', hmap, hmap', hlookup⟩
    · exact ⟨kvs, hsame.symm.trans hat, hinfo⟩
    · obtain rfl := CborValue.map.inj (Option.some.inj (hat.symm.trans hmap))
      exact ⟨kvs', hmap', info_extended hlookup hinfo⟩
  | authChallenge =>
    obtain ⟨hnonce, hproof, hsizes⟩ := hy
    exact ⟨(sameMessage_eq h (show 2 < 4 by decide) rfl).symm.trans hnonce,
      (sameMessage_eq h (show 3 < 4 by decide) rfl).symm.trans hproof, hsizes⟩
  | configStatus =>
    obtain ⟨code, state, hcode, hstate, hdetail⟩ := hy
    refine ⟨code, state, (sameMessage_eq h (show 2 < 4 by decide) rfl).symm.trans hcode, hstate, ?_⟩
    rcases map_element h (show 3 < 4 by decide) rfl with hsame | ⟨kvs, kvs', hmap, hmap', hlookup⟩
    · exact (show rest[1]? = rest'[1]? from hsame) ▸ hdetail
    · rw [show rest'[1]? = _ from hmap']
      rw [show rest[1]? = _ from hmap] at hdetail
      exact detail_extended hlookup hdetail
  | scanStatus =>
    obtain ⟨total, hfinished, htotal, hn⟩ := hy
    exact ⟨total, (sameMessage_eq h (show 2 < 4 by decide) rfl).symm.trans hfinished,
      (sameMessage_eq h (show 3 < 4 by decide) rfl).symm.trans htotal, hn⟩
  | scanResults =>
    obtain ⟨es, hat, hes⟩ := hy
    obtain ⟨hnone, -⟩ | ⟨x, x', hx, hx', hsame⟩ := sameMessage_get h (show 2 < 3 by decide)
    · exact absurd (hnone.symm.trans hat) (by simp)
    · obtain rfl := Option.some.inj (hx.symm.trans hat)
      rcases sameMaps_cases hsame with rfl | ⟨es₁, es', hlist, hlist', heach⟩
      · exact ⟨es, hx', hes⟩
      · obtain rfl := Option.some.inj hlist
        exact ⟨es', array_of_list hlist' ▸ hx', entries_extended heach hes⟩
  | credWrite =>
    obtain ⟨received, hat, hn⟩ := hy
    exact ⟨received, (sameMessage_eq h (show 2 < 3 by decide) rfl).symm.trans hat, hn⟩
  | credStatus => exact absurd rfl hd
  | authProof | configSet | configApply | scanStart | credFinalize | ctrl => exact trivial

lemma means_extended (ext : valueShape.Extends d w w') (hd : d ≠ .credStatus)
    {y : d.Value Int String} (means : Means c d w y) : Means c d w' y := by
  obtain ⟨xs, xs', rfl, rfl, hsame⟩ := extends_arrays ext
  obtain ⟨o, s, rest, heq, ho, hs, hy⟩ := means
  obtain rfl := CborValue.array.inj heq
  obtain ⟨hshort, -⟩ | ⟨op, status, _, rest', ⟨⟩, rfl⟩ := sameMessage_cases hsame
  · exact absurd hshort (by simp)
  · exact ⟨o, s, rest', rfl, ho, hs, yields_extended hsame hd hy⟩

lemma status_extended (ext : valueShape.Extends .credStatus w w')
    {y : CredKind → Option Int} (means : Means c .credStatus w y) :
    (∃ y' : CredKind → Option Int, Means c .credStatus w' y' ∧
      ∀ kind n, y kind = some n → y' kind = some n) ↔
    ∀ kvs kvs', valueShape.statusMap w = some kvs → valueShape.statusMap w' = some kvs' →
      Harmless c.statusEntry kvs kvs' := by
  obtain ⟨xs, xs', rfl, rfl, hsame⟩ := extends_arrays ext
  obtain ⟨o, s, rest, heq, ho, hs, kvs, entries, hat, hentries, rfl⟩ := means
  obtain rfl := CborValue.array.inj heq
  obtain ⟨hshort, -⟩ | ⟨op, status, _, rest', ⟨⟩, rfl⟩ := sameMessage_cases hsame
  · exact absurd hshort (by simp)
  · have hmap : valueShape.statusMap (.array (.int o :: .int s :: rest)) = some kvs :=
      congrArg (Option.bind · mapValue) hat
    obtain ⟨kvs', hmap'⟩ := statusMap_extended ext hmap
    obtain ⟨x, hx, hdict⟩ := Option.bind_eq_some_iff.mp
      (show rest'[0]?.bind mapValue = some kvs' from hmap')
    have hat' : rest'[0]? = some (.map kvs') := by rw [hx, map_of_dict hdict]
    constructor
    · rintro ⟨y', ⟨_, _, _, ⟨⟩, -, -, _, entries', hat₂, hentries', rfl⟩, hkeeps⟩ _ _ h h'
      obtain rfl := Option.some.inj (hmap.symm.trans h)
      obtain rfl := Option.some.inj (hmap'.symm.trans h')
      obtain rfl := CborValue.map.inj (Option.some.inj (hat'.symm.trans hat₂))
      exact (exists_keeps_iff hentries).mp ⟨entries', hentries', hkeeps⟩
    · intro hharmless
      obtain ⟨entries', hentries', hkeeps⟩ :=
        (exists_keeps_iff hentries).mpr (hharmless kvs kvs' hmap hmap')
      exact ⟨_, ⟨o, s, rest', rfl, ho, hs, kvs', entries', hat', hentries', rfl⟩, hkeeps⟩

lemma app_extended {r : Rules String} {data data' : Bytes}
    {decodeRsp : Bytes → Except Refusal (d.Value Int String)}
    (decodes : ∀ data y, decodeRsp data = .ok y ↔
      ∃ v, ClientReader.decode r data = .ok v ∧ Means c d v y)
    (ext : ∀ w w', ClientReader.decode r data = .ok w → ClientReader.decode r data' = .ok w' →
      valueShape.Extends d w w')
    {y : d.Value Int String} (accepted : decodeRsp data = .ok y) :
    (∃ y', (decodeRsp data').toOption = some y' ∧ Keeps d y y') ↔
      (∃ w rest, Reads r data' w rest) ∧ (d = .credStatus → HarmlessRead r c data data') := by
  obtain ⟨w, hw, hmeans⟩ := (decodes data y).mp accepted
  simp only [← eq_ok_iff, decodes]
  constructor
  · rintro ⟨y', ⟨w', hw', hmeans'⟩, hkeeps⟩
    obtain ⟨rest', hreads'⟩ := decode_ok_iff.mp hw'
    refine ⟨⟨w', rest', hreads'⟩, ?_⟩
    rintro rfl w₁ rest w₂ rest₂ kvs kvs' h₁ h₂
    obtain rfl := Except.ok.inj (hw.symm.trans (decode_ok_iff.mpr ⟨rest, h₁⟩))
    obtain rfl := Except.ok.inj (hw'.symm.trans (decode_ok_iff.mpr ⟨rest₂, h₂⟩))
    exact (status_extended (ext w w' hw hw') hmeans).mp ⟨y', hmeans', hkeeps⟩ kvs kvs'
  · rintro ⟨⟨w', rest', hreads'⟩, hharmless⟩
    have hw' := decode_ok_iff.mpr ⟨rest', hreads'⟩
    obtain ⟨rest, hreads⟩ := decode_ok_iff.mp hw
    by_cases hd : d = .credStatus
    · subst hd
      obtain ⟨y', hmeans', hkeeps⟩ := (status_extended (ext w w' hw hw') hmeans).mpr
        fun kvs kvs' => hharmless rfl w rest w' rest' kvs kvs' hreads hreads'
      exact ⟨y', ⟨w', hw', hmeans'⟩, hkeeps⟩
    · exact ⟨y, ⟨w', hw', means_extended (ext w w' hw hw') hd hmeans⟩, keeps_of_eq rfl⟩

end Apps

def objShape {py : Clients.Python} (dicts : Dicts py) : Shape py.Obj String where
  list := py.list
  dict := dicts.entries
  text := dicts.text
  key := id

section Objects

variable {py : Clients.Python} {dicts : Dicts py} {d : Decoder} {data data' : Bytes} {o o' : py.Obj}
  {n n' : Nat}

/-- The check of the head lets an extended message through, or stops it, like the message. -/
lemma decode_extended (hload : py.loads data = some (o, n))
    (hload' : py.loads data' = some (o', n')) (ext : (objShape dicts).Extends d o o')
    (expectOp : Int) (context : String) {α : Type} {f : List py.Obj → Except Refusal α}
    (h : ∀ msg msg', (objShape dicts).SameMessage d msg msg' → f msg = f msg') :
    (Python.decode py data expectOp context >>= f) =
      (Python.decode py data' expectOp context >>= f) := by
  obtain ⟨xs, xs', hxs, hxs', hsame⟩ := ext
  simp only [Python.decode, hload, hload', show py.list o = some xs from hxs,
    show py.list o' = some xs' from hxs']
  obtain ⟨hshort, hshort'⟩ | ⟨op, status, rest, rest', rfl, rfl⟩ := sameMessage_cases hsame
  · obtain rfl | ⟨x, rfl⟩ := short_cases hshort
    all_goals obtain rfl | ⟨x', rfl⟩ := short_cases hshort' <;> rfl
  · simp only []
    split
    · rfl
    · split
      · exact h _ _ hsame
      all_goals rfl

lemma get_same {names : List String} {y y' : py.Obj} (h : (objShape dicts).SameMap names y y')
    {name : String} (hname : name ∈ names) :
    Python.get py dicts y name = Python.get py dicts y' name := by
  rcases sameMap_cases h with rfl | ⟨kvs, kvs', hy, hy', hkept⟩
  · rfl
  · have hfind := find?_kept hname hkept
    simp only [Python.get, show dicts.entries y = some kvs from hy,
      show dicts.entries y' = some kvs' from hy', Option.map_some]
    exact congrArg (fun kv => some (kv.map Prod.snd)) hfind

lemma getItem_same {names : List String} {y y' : py.Obj} (h : (objShape dicts).SameMap names y y')
    {name : String} (hname : name ∈ names) :
    Python.getItem py dicts y name = Python.getItem py dicts y' name := by
  rw [Python.getItem, Python.getItem, get_same h hname]

lemma scanEntry_same {y y' : py.Obj} (h : (objShape dicts).SameMap (keys .scanResults) y y') :
    Python.scanEntry py dicts y = Python.scanEntry py dicts y' := by
  have hget : ∀ name ∈ keys .scanResults,
      Python.getItem py dicts y name = Python.getItem py dicts y' name :=
    fun name hname => getItem_same h hname
  simp only [Python.scanEntry, hget "ssid" (by decide), hget "bssid" (by decide),
    hget "ch" (by decide), hget "rssi" (by decide), hget "auth" (by decide)]

lemma configDetail_same (state : StaState) {y y' : py.Obj}
    (h : (objShape dicts).SameMap (keys .configStatus) y y') :
    Python.configDetail py dicts state (some y) = Python.configDetail py dicts state (some y') := by
  rcases sameMap_cases h with rfl | ⟨kvs, kvs', hy, hy', -⟩
  · rfl
  · have hentries : dicts.entries y = some kvs := hy
    have hentries' : dicts.entries y' = some kvs' := hy'
    simp only [Python.configDetail, dicts.isInt_dict hentries, dicts.isInt_dict hentries',
      hentries, hentries', Option.isSome_some, Bool.false_eq_true, if_false, if_true,
      getItem_same h (show "ip4" ∈ keys .configStatus by decide),
      getItem_same h (show "ssid" ∈ keys .configStatus by decide),
      get_same h (show "rssi" ∈ keys .configStatus by decide)]

lemma mapM_forall₂ {m : Type → Type} [Monad m] [LawfulMonad m] {α β : Type} {f : α → m β}
    {R : α → α → Prop} {xs xs' : List α} (hf : ∀ x x', R x x' → f x = f x')
    (h : List.Forall₂ R xs xs') : xs.mapM f = xs'.mapM f := by
  induction h with
  | nil => rfl
  | cons hx _ ih => rw [List.mapM_cons, List.mapM_cons, hf _ _ hx, ih]

theorem python_same (hload : py.loads data = some (o, n)) (hload' : py.loads data' = some (o', n'))
    (ext : (objShape dicts).Extends d o o') (hd : d ≠ .credStatus) :
    Python.decodeRsp py dicts data d = Python.decodeRsp py dicts data' d := by
  cases d with
  | ver =>
    refine decode_extended hload hload' ext 0 "ver" fun msg msg' h => ?_
    obtain ⟨hnone, hnone'⟩ | ⟨y, y', hy, hy', hsame⟩ := sameMessage_get h (i := 2) (by decide)
    · simp only [hnone, hnone']
    · have hget : ∀ name ∈ keys .ver,
          Python.getItem py dicts y name = Python.getItem py dicts y' name :=
        fun name hname => getItem_same hsame hname
      simp only [hy, hy', Python.attempt_some rfl, ok_bind, hget "proto" (by decide),
        hget "caps" (by decide), hget "blk" (by decide), hget "lib" (by decide),
        get_same hsame (show "pop" ∈ keys .ver by decide)]
  | authChallenge =>
    refine decode_extended hload hload' ext 0 "auth" fun msg msg' h => ?_
    simp only [sameMessage_eq h (show 2 < 4 by decide) rfl,
      sameMessage_eq h (show 3 < 4 by decide) rfl]
  | configStatus =>
    refine decode_extended hload hload' ext 0 "config" fun msg msg' h => ?_
    simp only [sameMessage_eq h (show 2 < 4 by decide) rfl]
    obtain ⟨hnone, hnone'⟩ | ⟨y, y', hy, hy', hsame⟩ := sameMessage_get h (i := 3) (by decide)
    · simp only [hnone, hnone']
    · simp only [hy, hy', configDetail_same _ hsame]
  | scanStatus =>
    refine decode_extended hload hload' ext 1 "scan" fun msg msg' h => ?_
    simp only [sameMessage_eq h (show 2 < 4 by decide) rfl,
      sameMessage_eq h (show 3 < 4 by decide) rfl]
  | scanResults =>
    refine decode_extended hload hload' ext 2 "scan" fun msg msg' h => ?_
    obtain ⟨hnone, hnone'⟩ | ⟨y, y', hy, hy', hsame⟩ := sameMessage_get h (i := 2) (by decide)
    · simp only [hnone, hnone']
    · rcases sameMaps_cases hsame with rfl | ⟨es, es', hes, hes', heach⟩
      · simp only [hy, hy']
      · simp only [hy, hy', Option.bind_some, dicts.iter_list hes, dicts.iter_list hes',
          Python.attempt_some rfl, ok_bind]
        exact mapM_forall₂ (fun _ _ => scanEntry_same) heach
  | credWrite =>
    refine decode_extended hload hload' ext 0 "cred" fun msg msg' h => ?_
    simp only [sameMessage_eq h (show 2 < 3 by decide) rfl]
  | credStatus => exact absurd rfl hd
  | authProof => exact decode_extended hload hload' ext 1 "auth" fun _ _ _ => rfl
  | configSet => exact decode_extended hload hload' ext 1 "config" fun _ _ _ => rfl
  | configApply => exact decode_extended hload hload' ext 2 "config" fun _ _ _ => rfl
  | scanStart => exact decode_extended hload hload' ext 0 "scan" fun _ _ _ => rfl
  | credFinalize => exact decode_extended hload hload' ext 1 "cred" fun _ _ _ => rfl
  | ctrl op => exact decode_extended hload hload' ext op.code "ctrl" fun _ _ _ => rfl

lemma python_status_iff (hload : py.loads data = some (o, n)) {y : CredKind → Option Int} :
    Python.decodeCredStatusRsp py dicts data = .ok y ↔
      (∃ msg, Python.decode py data 2 "cred" = .ok msg) ∧
        ∃ kvs entries, (objShape dicts).statusMap o = some kvs ∧
          kvs.mapM (Python.statusEntry py) = some entries ∧ associate entries = y := by
  have hmap : ∀ msg, Python.decode py data 2 "cred" = .ok msg →
      (objShape dicts).statusMap o = msg[2]?.bind dicts.entries := fun msg hmsg => by
    rw [Shape.statusMap, show (objShape dicts).list o = some msg from Python.decode_ok hload hmsg]
    rfl
  simp only [Python.decodeCredStatusRsp, bind_eq_ok_iff, Python.attempt_ok_iff]
  constructor
  · rintro ⟨msg, hmsg, kvs, hkvs, entries, hentries, heq⟩
    exact ⟨⟨msg, hmsg⟩, kvs, entries, (hmap msg hmsg).trans hkvs, hentries, Except.ok.inj heq⟩
  · rintro ⟨⟨msg, hmsg⟩, kvs, entries, hkvs, hentries, rfl⟩
    exact ⟨msg, hmsg, kvs, (hmap msg hmsg).symm.trans hkvs, entries, hentries, rfl⟩

lemma python_status_extended (hload : py.loads data = some (o, n))
    (hload' : py.loads data' = some (o', n')) (ext : (objShape dicts).Extends .credStatus o o')
    {y : CredKind → Option Int} (accepted : Python.decodeCredStatusRsp py dicts data = .ok y) :
    (∃ y', Python.decodeCredStatusRsp py dicts data' = .ok y' ∧
      ∀ kind n, y kind = some n → y' kind = some n) ↔
    ∀ kvs kvs', (objShape dicts).statusMap o = some kvs →
      (objShape dicts).statusMap o' = some kvs' → Harmless (Python.statusEntry py) kvs kvs' := by
  obtain ⟨⟨msg, hmsg⟩, kvs, entries, hmap, hentries, rfl⟩ := (python_status_iff hload).mp accepted
  obtain ⟨kvs', hmap'⟩ := statusMap_extended ext hmap
  obtain ⟨msg', hmsg', -⟩ := bind_ok ((decode_extended hload hload' ext 2 "cred"
    fun _ _ _ => rfl).symm.trans (read_bind hmsg fun _ => Except.ok ()))
  constructor
  · rintro ⟨y', hy', hkeeps⟩ _ _ h h'
    obtain rfl := Option.some.inj (hmap.symm.trans h)
    obtain ⟨-, _, entries', h₁, hentries', rfl⟩ := (python_status_iff hload').mp hy'
    obtain rfl := Option.some.inj (h₁.symm.trans h')
    exact (exists_keeps_iff hentries).mp ⟨entries', hentries', hkeeps⟩
  · intro hharmless
    obtain ⟨entries', hentries', hkeeps⟩ :=
      (exists_keeps_iff hentries).mpr (hharmless kvs kvs' hmap hmap')
    exact ⟨_, (python_status_iff hload').mpr ⟨⟨msg', hmsg'⟩, kvs', entries', hmap', hentries', rfl⟩,
      hkeeps⟩

end Objects

inductive Client where
  | python (py : Clients.Python) (dicts : Dicts py)
  | kotlin (t : Texts)
  | swift (t : Texts)

namespace Client

def Value (d : Decoder) : Client → Type
  | .python py _ => d.Value py.Obj py.Obj
  | .kotlin _ => d.Value Int String
  | .swift _ => d.Value Int String

/-- The value of a response that the client accepts. -/
def decodeRsp (d : Decoder) (data : Bytes) : (c : Client) → Option (c.Value d)
  | .python py dicts => (Python.decodeRsp py dicts data d).toOption
  | .kotlin t => (Kotlin.decodeRsp t data d).toOption
  | .swift t => (Swift.decodeRsp t data d).toOption

@[inherit_doc ForwardCompat.Keeps]
def Keeps (d : Decoder) : (c : Client) → c.Value d → c.Value d → Prop
  | .python _ _ => ForwardCompat.Keeps d
  | .kotlin _ => ForwardCompat.Keeps d
  | .swift _ => ForwardCompat.Keeps d

/-- The CBOR reader of the client can read the data. -/
def Reads (data : Bytes) : Client → Prop
  | .python py _ => (py.loads data).isSome
  | .kotlin t => ∃ w rest, ClientReader.Reads (ClientReader.Kotlin.rules t) data w rest
  | .swift t => ∃ w rest, ClientReader.Reads (ClientReader.Swift.rules t) data w rest

/-- UTF-8 does not give one of the names for other bytes. -/
def ReadsNames : Client → Prop
  | .python _ _ => True
  | .kotlin t => ForwardCompat.ReadsNames (ClientReader.Kotlin.rules t)
  | .swift t => ForwardCompat.ReadsNames (ClientReader.Swift.rules t)

/-- The entries that were added to the status of the credentials give kinds, and take the place
of none that were there. -/
def Harmless (data data' : Bytes) : Client → Prop
  | .python py dicts => ∀ o n o' n' kvs kvs', py.loads data = some (o, n) →
      py.loads data' = some (o', n') → (objShape dicts).statusMap o = some kvs →
      (objShape dicts).statusMap o' = some kvs' →
      ForwardCompat.Harmless (Python.statusEntry py) kvs kvs'
  | .kotlin t => HarmlessRead (ClientReader.Kotlin.rules t) (Kotlin.taking t) data data'
  | .swift t => HarmlessRead (ClientReader.Swift.rules t) Swift.taking data data'

end Client

/-- Well-formed responses, the second of which extends the first. -/
def WireExtends (d : Decoder) (data data' : Bytes) : Prop :=
  ∃ x x' rest rest', Parses data x rest ∧ Parses data' x' rest' ∧ itemShape.Extends d x x'

/-- The second response extends the first. What `cbor2` makes of a response is taken as given;
an array of bytes in Kotlin has fewer than `2 ^ 31`. -/
def Client.Extends (d : Decoder) (data data' : Bytes) : Client → Prop
  | .python py dicts => ∃ o o' n n', py.loads data = some (o, n) ∧ py.loads data' = some (o', n') ∧
      (objShape dicts).Extends d o o'
  | .kotlin _ => data.length < 2 ^ 31 ∧ data'.length < 2 ^ 31 ∧ WireExtends d data data'
  | .swift _ => WireExtends d data data'

lemma python_extended {py : Clients.Python} {dicts : Dicts py} {d : Decoder} {data data' : Bytes}
    {o o' : py.Obj} {n n' : Nat} (hload : py.loads data = some (o, n))
    (hload' : py.loads data' = some (o', n')) (ext : (objShape dicts).Extends d o o')
    {y : d.Value py.Obj py.Obj} (accepted : Python.decodeRsp py dicts data d = .ok y) :
    (∃ y', (Python.decodeRsp py dicts data' d).toOption = some y' ∧ Keeps d y y') ↔
      (Client.python py dicts).Reads data' ∧
        (d = .credStatus → (Client.python py dicts).Harmless data data') := by
  have hreads : (Client.python py dicts).Reads data' := Option.isSome_of_eq_some hload'
  simp only [← eq_ok_iff]
  by_cases hd : d = .credStatus
  · subst hd
    have hstatus := python_status_extended hload hload' ext accepted
    constructor
    · rintro ⟨y', hy', hkeeps⟩
      refine ⟨hreads, fun _ o₁ n₁ o₂ n₂ kvs kvs' h₁ h₂ => ?_⟩
      obtain ⟨rfl, -⟩ := Prod.mk.inj (Option.some.inj (hload.symm.trans h₁))
      obtain ⟨rfl, -⟩ := Prod.mk.inj (Option.some.inj (hload'.symm.trans h₂))
      exact hstatus.mp ⟨y', hy', hkeeps⟩ kvs kvs'
    · rintro ⟨-, hharmless⟩
      obtain ⟨y', hy', hkeeps⟩ :=
        hstatus.mpr fun kvs kvs' => hharmless rfl o n o' n' kvs kvs' hload hload'
      exact ⟨y', hy', hkeeps⟩
  · rw [← python_same hload hload' ext hd]
    exact ⟨fun _ => ⟨hreads, fun h => absurd h hd⟩, fun _ => ⟨y, accepted, keeps_of_eq rfl⟩⟩

lemma wire_extends {r : Rules String} {bound : Nat} (exact : Exact r bound) (names : ReadsNames r)
    (keeps : KeepsEntries r) {d : Decoder} {data data' : Bytes} (short : data.length ≤ bound)
    (short' : data'.length ≤ bound) (ext : WireExtends d data data') {w w' : CborValue}
    (hw : ClientReader.decode r data = .ok w) (hw' : ClientReader.decode r data' = .ok w') :
    valueShape.Extends d w w' := by
  obtain ⟨x, x', rest, rest', hparses, hparses', hext⟩ := ext
  exact extends_value names keeps (value_of_decode exact hparses short hw)
    (value_of_decode exact hparses' short' hw') hext

/-- What a client has accepted it accepts when it is extended, and gets what it got before,
exactly if its reader reads the extension and an added kind of credential does no harm. -/
theorem responses_forward_compatible_iff (c : Client) (d : Decoder) {data data' : Bytes}
    (names : c.ReadsNames) (ext : c.Extends d data data') {v : c.Value d}
    (accepted : c.decodeRsp d data = some v) :
    (∃ v', c.decodeRsp d data' = some v' ∧ c.Keeps d v v') ↔
      c.Reads data' ∧ (d = .credStatus → c.Harmless data data') := by
  cases c with
  | python py dicts =>
    obtain ⟨o, o', n, n', hload, hload', hext⟩ := ext
    exact python_extended hload hload' hext (eq_ok_iff.mpr accepted)
  | kotlin t =>
    obtain ⟨hlen, hlen', hext⟩ := ext
    exact app_extended (fun data y => Kotlin.decodeRsp_ok_iff)
      (fun w w' => wire_extends (ClientReader.Kotlin.exact t) names (kotlin_keepsEntries t)
        (by omega) (by omega) hext) (eq_ok_iff.mpr accepted)
  | swift t =>
    exact app_extended (fun data y => Swift.decodeRsp_ok_iff)
      (fun w w' => wire_extends (ClientReader.Swift.exact t (max data.length data'.length)) names
        (swift_keepsEntries t) (Nat.le_max_left _ _) (Nat.le_max_right _ _) ext)
      (eq_ok_iff.mpr accepted)

lemma referenceTexts_readsNames :
    ReadsNames (ClientReader.Kotlin.rules referenceTexts) := by
  intro d name hname b s h
  obtain rfl : (utf8Decode b).getD "\uFFFD" = s := Except.ok.inj h
  constructor
  · intro heq
    cases hdecode : utf8Decode b with
    | none =>
      rw [hdecode] at heq
      subst heq
      cases d <;> simp [keys] at hname
    | some s =>
      rw [hdecode] at heq
      rw [← show s = name from heq, utf8_of_utf8Decode hdecode]
  · rintro rfl
    rw [utf8Decode_utf8]
    rfl

lemma wireExtends_of_read {d : Decoder} {data data' : Bytes}
    {xs xs' : List Item} (hread : read 16 data = some (.array xs, []))
    (hread' : read 16 data' = some (.array xs', []))
    (same : itemShape.SameMessage d xs xs') : WireExtends d data data' :=
  ⟨.array xs, .array xs', [], [], (read_sound 16).1 _ _ _ hread, (read_sound 16).1 _ _ _ hread',
    xs, xs', rfl, rfl, same⟩

/-- The info of a version response with other entries before the library. -/
def verInfo (added : List Item) : Item :=
  .map ([.tstr (utf8 "proto"), .uint 1, .tstr (utf8 "caps"),
    .array [.tstr (utf8 "wifi"), .tstr (utf8 "cred")], .tstr (utf8 "blk"), .uint 512] ++ added ++
    [.tstr (utf8 "lib"), .tstr (utf8 "0.1.0")])

def extendedVerRsp : Bytes :=
  encode (.array [.uint 0, .uint 0, verInfo [.tstr (utf8 "mtu"), .uint 247], .bool true])

lemma extendedVerRsp_extends : WireExtends .ver sampleVerRsp extendedVerRsp := by
  have hread : read 16 sampleVerRsp = some (.array [.uint 0, .uint 0, verInfo []], []) := rfl
  have hread' : read 16 extendedVerRsp = some (.array [.uint 0, .uint 0,
      verInfo [.tstr (utf8 "mtu"), .uint 247], .bool true], []) := rfl
  refine wireExtends_of_read hread hread' ⟨by decide, ?_, ?_⟩
  · intro h
    exact absurd h (by decide)
  · intro i hi y y' hy hy'
    match i, hi with
    | 0, _ => exact Option.some.inj (hy.symm.trans hy')
    | 1, _ => exact Option.some.inj (hy.symm.trans hy')
    | 2, _ =>
      obtain rfl : verInfo [] = y := Option.some.inj hy
      obtain rfl : verInfo [.tstr (utf8 "mtu"), .uint 247] = y' := Option.some.inj hy'
      rfl

/-- The status of the credentials with a device certificate of five bytes, and with other
entries. -/
def credStatusItems (added : List Item) : List Item :=
  [.uint 2, .uint 0, .map ([.tstr (utf8 "0"), .uint 5] ++ added)]

def credStatusRsp : Bytes := encode (.array (credStatusItems []))

def newKindRsp : Bytes := encode (.array (credStatusItems [.tstr (utf8 "3"), .uint 7]))

/-- The status with a second spelling of a kind. -/
def otherKindRsp : Bytes := encode (.array (credStatusItems [.tstr (utf8 "01"), .uint 7]))

lemma added_sameMessage {K : Type} [DecidableEq K] {s : Shape Item K} {added : List Item}
    (same : s.SameMap (keys .credStatus) (.map [.tstr (utf8 "0"), .uint 5])
      (.map ([.tstr (utf8 "0"), .uint 5] ++ added))) :
    s.SameMessage .credStatus (credStatusItems []) (credStatusItems added) := by
  refine ⟨by simp [credStatusItems], fun _ => rfl, ?_⟩
  intro i hi y y' hy hy'
  match i, hi with
  | 0, _ => exact Option.some.inj (hy.symm.trans hy')
  | 1, _ => exact Option.some.inj (hy.symm.trans hy')
  | 2, _ =>
    obtain rfl := Option.some.inj hy
    obtain rfl := Option.some.inj hy'
    exact same

lemma otherKind_extends : WireExtends .credStatus credStatusRsp otherKindRsp := by
  have hread : read 16 credStatusRsp = some (.array (credStatusItems []), []) := rfl
  have hread' : read 16 otherKindRsp =
      some (.array (credStatusItems [.tstr (utf8 "01"), .uint 7]), []) := rfl
  exact wireExtends_of_read hread hread' (added_sameMessage rfl)

/-- The status as the values that a reader gives. -/
def credStatusValue (added : List (CborValue × CborValue)) : CborValue :=
  .array [.int 2, .int 0, .map ((.text "0", .int 5) :: added)]

lemma otherKind_harmless : (Client.kotlin referenceTexts).Harmless credStatusRsp otherKindRsp := by
  intro w rest w' rest' kvs kvs' hreads hreads' hmap hmap'
  have htakes := CborRoundTrip.kotlin_takes CborRoundTrip.referenceTexts_decodes
  have hw : ClientReader.decode (ClientReader.Kotlin.rules referenceTexts) credStatusRsp =
      .ok (credStatusValue []) :=
    CborRoundTrip.decode_encode htakes (v := credStatusValue [])
      ⟨trivial, trivial, ⟨by decide, ⟨_, rfl⟩, trivial, trivial⟩, trivial⟩ (by decide)
  have hw' : ClientReader.decode (ClientReader.Kotlin.rules referenceTexts) otherKindRsp =
      .ok (credStatusValue [(.text "01", .int 7)]) :=
    CborRoundTrip.decode_encode htakes (v := credStatusValue [(.text "01", .int 7)])
      ⟨trivial, trivial, ⟨by decide, ⟨_, rfl⟩, trivial, ⟨_, rfl⟩, trivial, trivial⟩, trivial⟩
      (by decide)
  obtain rfl := Except.ok.inj (hw.symm.trans (decode_ok_iff.mpr ⟨rest, hreads⟩))
  obtain rfl := Except.ok.inj (hw'.symm.trans (decode_ok_iff.mpr ⟨rest', hreads'⟩))
  obtain rfl := Option.some.inj hmap
  obtain rfl := Option.some.inj hmap'
  have hentries : [(CborValue.text "0", CborValue.int 5)].mapM
      (Kotlin.taking referenceTexts).statusEntry = some [(.deviceCert, 5)] := by decide +kernel
  refine (exists_keeps_iff hentries).mp
    ⟨[(.deviceCert, 5), (.privateKey, 7)], by decide +kernel, fun kind n h => ?_⟩
  cases kind with
  | deviceCert => exact h
  | privateKey | caCert => cases (show none = some n from h)

lemma reads_of_isSome {r : Rules String} {data : Bytes}
    (h : (ClientReader.decode r data).toOption.isSome) : ∃ w rest, Reads r data w rest := by
  obtain ⟨w, hw⟩ := ok_of_toOption h
  exact ⟨w, decode_ok_iff.mp hw⟩

/-- A new entry and a new element of the version, and a kind that the status did not have. -/
theorem responses_forward_compatible_kotlin :
    (∃ v v', (Client.kotlin referenceTexts).decodeRsp .ver sampleVerRsp = some v ∧
      (Client.kotlin referenceTexts).decodeRsp .ver extendedVerRsp = some v' ∧
      (Client.kotlin referenceTexts).Keeps .ver v v') ∧
    ∃ v v', (Client.kotlin referenceTexts).decodeRsp .credStatus credStatusRsp = some v ∧
      (Client.kotlin referenceTexts).decodeRsp .credStatus otherKindRsp = some v' ∧
      (Client.kotlin referenceTexts).Keeps .credStatus v v' := by
  constructor
  · have haccepted : ((Client.kotlin referenceTexts).decodeRsp .ver sampleVerRsp).isSome := by
      decide +kernel
    obtain ⟨v, hv⟩ := Option.isSome_iff_exists.mp haccepted
    have hreads : (Client.kotlin referenceTexts).Reads extendedVerRsp :=
      reads_of_isSome (by decide +kernel)
    obtain ⟨v', hv', hkeeps⟩ := (responses_forward_compatible_iff (.kotlin referenceTexts) .ver
      referenceTexts_readsNames ⟨by decide, by decide, extendedVerRsp_extends⟩ hv).mpr
      ⟨hreads, fun h => nomatch h⟩
    exact ⟨v, v', hv, hv', hkeeps⟩
  · have haccepted :
        ((Client.kotlin referenceTexts).decodeRsp .credStatus credStatusRsp).isSome := by
      decide +kernel
    obtain ⟨v, hv⟩ := Option.isSome_iff_exists.mp haccepted
    have hreads : (Client.kotlin referenceTexts).Reads otherKindRsp :=
      reads_of_isSome (by decide +kernel)
    obtain ⟨v', hv', hkeeps⟩ := (responses_forward_compatible_iff (.kotlin referenceTexts)
      .credStatus referenceTexts_readsNames ⟨by decide, by decide, otherKind_extends⟩ hv).mpr
      ⟨hreads, fun _ => otherKind_harmless⟩
    exact ⟨v, v', hv, hv', hkeeps⟩

/-- The dicts of data items. -/
def itemDicts (prim : Saead.Primitives) (int : Item → Option Int) (truthy : Item → Bool) :
    Dicts (Clients.itemPython prim int truthy) where
  entries := itemShape.dict
  text x := (itemShape.text x).bind utf8Decode
  isInt x := (intOf x).isSome
  iter := listOf
  iter_list := id
  isInt_dict := by
    intro o kvs h
    cases o with
    | map xs => rfl
    | _ => exact absurd h (by simp [itemShape])

/-- `int` of Python, which also reads a text. -/
def itemInt : Item → Option Int
  | .tstr b => (utf8Decode b).bind (parseInt asciiDigit)
  | x => intOf x

abbrev referenceCodec : Clients.Python :=
  Clients.itemPython Clients.samplePrimitives itemInt fun x => x matches .tstr (_ :: _)

abbrev referenceDicts : Dicts referenceCodec := itemDicts _ _ _

/-- The response is accepted, but one that extends it as the protocol allows is not. -/
def Client.Breaks (c : Client) (d : Decoder) (data data' : Bytes) : Prop :=
  c.Extends d data data' ∧ (c.decodeRsp d data).isSome ∧ (c.decodeRsp d data').isNone

/-- The response to an auth proof, and the same with a floating-point number behind it. -/
def authProofRsp : Bytes := [0x82, 0x01, 0x00]

def floatRsp : Bytes := [0x83, 0x01, 0x00, 0xf9, 0x3e, 0x00]

lemma newKind_dropped : (objShape referenceDicts).SameMap (keys .credStatus)
    (.map [.tstr (utf8 "0"), .uint 5])
    (.map [.tstr (utf8 "0"), .uint 5, .tstr (utf8 "3"), .uint 7]) := by
  have hdropped : (objShape referenceDicts).kept (keys .credStatus)
      (.tstr (utf8 "3"), .uint 7) = false := by decide +kernel
  exact filter_kept_append hdropped [(.tstr (utf8 "0"), .uint 5)]

lemma newKind_extends :
    WireExtends .credStatus credStatusRsp newKindRsp := by
  have hread : read 16 credStatusRsp = some (.array (credStatusItems []), []) := rfl
  have hread' : read 16 newKindRsp =
      some (.array (credStatusItems [.tstr (utf8 "3"), .uint 7]), []) := rfl
  exact wireExtends_of_read hread hread' (added_sameMessage rfl)

lemma float_extends : WireExtends .authProof authProofRsp floatRsp := by
  have hread : read 16 authProofRsp = some (.array [.uint 1, .uint 0], []) := rfl
  have hread' : read 16 floatRsp = some (.array [.uint 1, .uint 0, .prim 25 0x3e00], []) := rfl
  refine wireExtends_of_read hread hread' ⟨by decide, ?_, ?_⟩
  · intro h
    exact absurd h (by decide)
  · intro i hi y y' hy hy'
    match i, hi with
    | 0, _ => exact Option.some.inj (hy.symm.trans hy')
    | 1, _ => exact Option.some.inj (hy.symm.trans hy')

/-- None of the clients accepts a kind of credential that it does not know, and the readers of
the two apps refuse a floating-point number. -/
theorem new_kind_refused :
    (Client.python referenceCodec referenceDicts).Breaks .credStatus credStatusRsp newKindRsp ∧
    (Client.kotlin referenceTexts).Breaks .credStatus credStatusRsp newKindRsp ∧
    (Client.swift referenceTexts).Breaks .credStatus credStatusRsp newKindRsp ∧
    (Client.kotlin referenceTexts).Breaks .authProof authProofRsp floatRsp ∧
    (Client.swift referenceTexts).Breaks .authProof authProofRsp floatRsp := by
  refine ⟨⟨⟨.array (credStatusItems []), .array (credStatusItems [.tstr (utf8 "3"), .uint 7]),
    _, _, rfl, rfl, _, _, rfl, rfl, added_sameMessage ?_⟩, ?_, ?_⟩,
    ⟨⟨by decide, by decide, newKind_extends⟩, ?_, ?_⟩, ⟨newKind_extends, ?_, ?_⟩,
    ⟨⟨by decide, by decide, float_extends⟩, ?_, ?_⟩, ⟨float_extends, ?_, ?_⟩⟩
  · exact newKind_dropped
  all_goals decide +kernel

end ForwardCompat
