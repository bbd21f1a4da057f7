import Chanserv.Program.Caching
import Chanserv.Trello
import Mathlib.Data.List.Infix

/-! Trello: files that are downloaded once.

A file is kept under the SHA-1 of its address and served from there until a fresh one is
demanded. It is written beside its place and moved there when the transfer is done and the
status read is one of success, so a file in its place is what one download brought
(`file_latest`). The status is read from a handle that was freed: it may be any number. -/
namespace Chanserv
open Text Program

/-! ### The source -/

/-- What the client is made with, and the digest it calls. -/
structure TrelloApi where
  apiKey : Text
  userToken : Text
  evpSha1 : Text → List UInt8

/-- One `curl_easy_perform`, with the bytes it handed to the callback. -/
inductive Transfer where
  | unresolved
  | failed (written : List UInt8)
  | completed (written : List UInt8)

def Transfer.resolved : Transfer → Bool
  | unresolved => false
  | _ => true

def Transfer.written : Transfer → List UInt8
  | unresolved => []
  | failed written => written
  | completed written => written

/-- What one call of `get_file` meets. -/
structure GetFileEnv where
  curl : Bool
  /-- The file beside the place can be opened. -/
  opens : Bool
  /-- The bytes the disk takes. Nobody asks the stream whether it took them all. -/
  room : Nat
  perform : Nat → Transfer
  /-- What `curl_easy_getinfo` gives. `curl_easy_cleanup` came before it, so nothing ties it to the answer. -/
  statusRead : Int

/-- `status_code`: zero unless the transfer was completed. -/
def GetFileEnv.statusCode (env : GetFileEnv) : Transfer → Int
  | .completed _ => env.statusRead
  | _ => 0

/-- The range `get_file` tests for. -/
def isSuccessRead (status : Int) : Bool := 200 ≤ status && status < 300

structure CurlRequest where
  url : Text
  header : Text
deriving DecidableEq, Repr

structure TrelloCache where
  files : Cache Text (List UInt8) := fun _ => none
  requests : List CurlRequest := []

abbrev FilesM := EStateM Stop TrelloCache

def writeFile (name : Text) (bytes : List UInt8) : FilesM Unit :=
  modify fun s => {s with files := Function.update s.files name (some bytes)}

/-- `std::filesystem::remove`: a file that is not there is no error. -/
def removeFile (name : Text) : FilesM Unit :=
  modify fun s => {s with files := Function.update s.files name none}

/-- `std::filesystem::rename`, which throws when there is nothing to rename. -/
def renameFile (old new : Text) : FilesM Unit := do
  let s ← get
  match s.files old with
  | none => throw (.throws .stdException)
  | some bytes => do
    removeFile old
    writeFile new bytes

/-- `c_str()`: up to the first zero. -/
def cStr (t : Text) : Text := t.takeWhile (· ≠ '\x00')

def sha1 (api : TrelloApi) (t : Text) : Text :=
  (api.evpSha1 t).flatMap fun b => [hexDigit (b.toNat / 16), hexDigit (b.toNat % 16)]

def fileName (api : TrelloApi) (url extension : Text) : Text := of "cache/" ++ sha1 api url ++ extension

def trelloAddress : Text := of "https://api.trello.com/"

/-- The address asked: one without a scheme is of Trello. -/
def fullUrl (url : Text) : Text := if of "://" <:+: url then cStr url else trelloAddress ++ cStr url

def authorizationHeader (api : TrelloApi) : Text :=
  of "Authorization: OAuth oauth_consumer_key=\"" ++ cStr api.apiKey ++ of "\", oauth_token=\"" ++
    cStr api.userToken ++ of "\""

/-- The loop around `curl_easy_perform`: only a host that is not found is asked for again. -/
def performAll (request : CurlRequest) (perform : Nat → Transfer) : Nat → Nat → FilesM Transfer
  | 0, _ => pure .unresolved
  | tries + 1, i => do
    modify fun s => {s with requests := s.requests ++ [request]}
    if (perform i).resolved then pure (perform i) else performAll request perform tries (i + 1)

/-- What becomes of the file beside the place. -/
def placeFile (status : Int) (tmpFileName name : Text) : FilesM (Except TrelloError Text) :=
  if isSuccessRead status then do
    removeFile name
    renameFile tmpFileName name
    pure (.ok name)
  else do
    removeFile tmpFileName
    pure (.error .requestFailed)

/-- The part of `get_file` that has found no file. -/
def downloadFile (api : TrelloApi) (env : GetFileEnv) (url name : Text) : FilesM (Except TrelloError Text) :=
  if env.curl then do
    let tmpFileName := name ++ of ".tmp"
    guarded env.opens (writeFile tmpFileName [])
    let t ← performAll ⟨fullUrl url, authorizationHeader api⟩ env.perform 10 0
    guarded env.opens (writeFile tmpFileName (t.written.take env.room))
    placeFile (env.statusCode t) tmpFileName name
  else pure (.error .unknown)

/-- `get_file` with an extension. -/
def getFileAs (api : TrelloApi) (env : GetFileEnv) (url extension : Text) (force : Bool) :
    FilesM (Except TrelloError Text) := do
  let name := fileName api url extension
  let s ← get
  if (s.files name).isSome ∧ force = false then pure (.ok name)
  else do
    guarded ((s.files name).isSome) (removeFile name)
    downloadFile api env url name

def getFile (api : TrelloApi) (env : GetFileEnv) (url : Text) (force : Bool) : FilesM (Except TrelloError Text) :=
  getFileAs api env url (of ".cache") force

/-- A character `curl_easy_escape` leaves as it is. -/
def isUnreserved (c : Char) : Bool := c.isAlphanum || c ∈ ['-', '.', '_', '~']

def upperHexDigit (n : Nat) : Char := if n < 10 then Char.ofNat (48 + n) else Char.ofNat (55 + n)

def percentByte (b : UInt8) : Text := ['%', upperHexDigit (b.toNat / 16), upperHexDigit (b.toNat % 16)]

def curlEscapeChar (c : Char) : Text :=
  if isUnreserved c then [c] else (String.utf8EncodeChar c).flatMap percentByte

/-- `curl_easy_escape(curl, url.c_str(), 0)`. -/
def curlEscape (url : Text) : Text := (cStr url).flatMap curlEscapeChar

/-- A parameter, if it has a value. -/
def parameter (key : Text) (value : Option Int) : Text := value.elim [] fun n => of "&" ++ key ++ of "=" ++ itoa n

def imageUrl (url : Text) (width height : Option Int) : Text :=
  curlEscape url ++ parameter (of "width") width ++ parameter (of "height") height

structure GetImageEnv where
  curl : Bool
  escape : Bool
  file : GetFileEnv

def getImageFile (api : TrelloApi) (env : GetImageEnv) (url : Text) (width height : Option Int) (force : Bool) :
    FilesM (Except TrelloError Text) :=
  if env.curl && env.escape then getFileAs api env.file (imageUrl url width height) (of ".bin") force
  else pure (.error .unknown)

/-! ### One download -/

/-- The attempt the loop ends with, of this one and `more`. -/
def lastAttempt (perform : Nat → Transfer) : Nat → Nat → Nat
  | 0, i => i
  | more + 1, i => if (perform i).resolved then i else lastAttempt perform more (i + 1)

def GetFileEnv.attempt (env : GetFileEnv) : Nat := lastAttempt env.perform 9 0

/-- What is beside the place when the loop is done. -/
def GetFileEnv.beside (env : GetFileEnv) : Option (List UInt8) :=
  if env.opens then some ((env.perform env.attempt).written.take env.room) else none

/-- What becomes of it: the bytes in place, an error that is returned, or an exception. -/
def placed (status : Int) (beside : Option (List UInt8)) : Except (Option TrelloError) (List UInt8) :=
  if isSuccessRead status then beside.elim (.error none) .ok else .error (some .requestFailed)

/-- What a download brings. -/
def GetFileEnv.download (env : GetFileEnv) : Except (Option TrelloError) (List UInt8) :=
  if env.curl then placed (env.statusCode (env.perform env.attempt)) env.beside else .error (some .unknown)

/-- The requests of a download. -/
def GetFileEnv.asked (env : GetFileEnv) (api : TrelloApi) (url : Text) : List CurlRequest :=
  if env.curl then List.replicate (env.attempt + 1) ⟨fullUrl url, authorizationHeader api⟩ else []

section
variable {api : TrelloApi} {env : GetFileEnv} {url name extension : Text} {force : Bool} {s : TrelloCache}
variable {perform : Nat → Transfer} {request : CurlRequest}

theorem lastAttempt_bounds (perform : Nat → Transfer) (more i : Nat) :
    i ≤ lastAttempt perform more i ∧ lastAttempt perform more i ≤ i + more := by
  induction more generalizing i with
  | zero => exact ⟨Nat.le_refl i, Nat.le_refl i⟩
  | succ more ih =>
    obtain ⟨hlow, hhigh⟩ := ih (i + 1)
    rw [lastAttempt]
    split <;> omega

theorem performAll_spec (more i : Nat) :
    wp (performAll request perform (more + 1) i)
      (fun t s' => t = perform (lastAttempt perform more i) ∧
        s' = {s with requests := s.requests ++ List.replicate (lastAttempt perform more i - i + 1) request})
      (fun _ _ => False) s := by
  induction more generalizing i s with
  | zero =>
    rw [performAll, wp_bind, wp_modify, wp_ite, lastAttempt, Nat.sub_self]
    refine ⟨fun _ => ⟨rfl, rfl⟩, fun hunresolved => ⟨?_, rfl⟩⟩
    cases ht : perform i with
    | unresolved => rfl
    | failed _ => rw [ht] at hunresolved; exact absurd rfl hunresolved
    | completed _ => rw [ht] at hunresolved; exact absurd rfl hunresolved
  | succ more ih =>
    rw [performAll, wp_bind, wp_modify, wp_ite, lastAttempt]
    constructor
    · intro hresolved
      rw [if_pos hresolved, Nat.sub_self]
      exact ⟨rfl, rfl⟩
    · intro hunresolved
      rw [if_neg hunresolved]
      have hlow := (lastAttempt_bounds perform more (i + 1)).1
      refine wp_mono (ih (i + 1)) ?_ fun _ _ => id
      rintro t s' ⟨rfl, rfl⟩
      refine ⟨rfl, ?_⟩
      have hcount : lastAttempt perform more (i + 1) - i + 1 = lastAttempt perform more (i + 1) - (i + 1) + 1 + 1 := by
        omega
      rw [hcount]
      exact congrArg (TrelloCache.mk s.files) (List.append_cons ..).symm

theorem tmp_ne (name : Text) : name ++ of ".tmp" ≠ name := fun h =>
  absurd (List.append_right_eq_self.mp h) (by decide)

/-- The cache after a download for a name. -/
def TrelloCache.brought (s : TrelloCache) (api : TrelloApi) (env : GetFileEnv) (url name : Text) : TrelloCache :=
  ⟨Function.update s.files name env.download.toOption, s.requests ++ env.asked api url⟩

theorem wp_renameFile {Q : Unit → TrelloCache → Prop} {E : Stop → TrelloCache → Prop} {old new : Text} :
    wp (renameFile old new) Q E s ↔
      (∀ bytes, s.files old = some bytes →
        Q () {s with files := Function.update (Function.update s.files old none) new (some bytes)}) ∧
      (s.files old = none → E (.throws .stdException) s) := by
  rw [renameFile, wp_bind, wp_get]
  cases hold : s.files old with
  | none => simp
  | some bytes =>
    simp only [removeFile, writeFile, wp_bind, wp_modify, Option.some.injEq, forall_eq', reduceCtorEq, false_imp_iff,
      and_true]

section
variable {files : Cache Text (List UInt8)} {tmp : Text} {v : Option (List UInt8)}

theorem update_absent (h : files name = none) : Function.update files name none = files := by
  rw [← h, Function.update_eq_self]

/-- A file that is written and moved to its place. -/
theorem update_moved (hne : tmp ≠ name) (htmp : files tmp = none) :
    Function.update (Function.update (Function.update (Function.update files tmp v) name none) tmp none) name v =
      Function.update files name v := by
  rw [Function.update_comm hne, Function.update_idem, Function.update_comm hne.symm, Function.update_idem,
    update_absent htmp]

theorem placeFile_spec {status : Int} (hne : tmp ≠ name) (htmp : files tmp = none) (hname : files name = none)
    (hs : s.files = Function.update files tmp v) :
    wp (placeFile status tmp name)
      (fun r s' => s' = {s with files := Function.update files name (placed status v).toOption} ∧
        r.mapError some = (placed status v).map fun _ => name)
      (fun stop s' => s' = {s with files := Function.update files name (placed status v).toOption} ∧
        placed status v = .error none ∧ stop = .throws .stdException) s := by
  rw [placeFile, wp_ite, placed]
  constructor
  · intro hok
    rw [if_pos hok, wp_bind, removeFile, wp_modify, wp_bind, wp_renameFile, hs]
    dsimp only
    rw [Function.update_of_ne hne, Function.update_self]
    cases v with
    | none =>
      constructor
      · intro bytes h
        cases h
      · intro _
        refine ⟨?_, rfl, rfl⟩
        rw [update_absent htmp]
        rfl
    | some bytes =>
      constructor
      · rintro _ ⟨⟩
        refine ⟨?_, rfl⟩
        rw [update_moved hne htmp]
        rfl
      · intro h
        cases h
  · intro hfail
    rw [if_neg hfail, wp_bind, removeFile, wp_modify, wp_pure, hs, Function.update_idem, update_absent htmp]
    refine ⟨?_, rfl⟩
    show _ = ({s with files := Function.update files name none} : TrelloCache)
    rw [update_absent hname]

end

theorem wp_writeBeside {Q : Unit → TrelloCache → Prop} {E : Stop → TrelloCache → Prop} {opens : Bool} {bytes : List UInt8} :
    wp (guarded opens (writeFile name bytes)) Q E s ↔
      Q () {s with files := if opens then Function.update s.files name (some bytes) else s.files} := by
  cases opens <;> exact Iff.rfl

theorem downloadFile_spec (hname : s.files name = none) (htmp : s.files (name ++ of ".tmp") = none) :
    wp (downloadFile api env url name)
      (fun r s' => s' = s.brought api env url name ∧ r.mapError some = env.download.map fun _ => name)
      (fun stop s' => s' = s.brought api env url name ∧ env.download = .error none ∧ stop = .throws .stdException) s := by
  unfold downloadFile TrelloCache.brought GetFileEnv.download GetFileEnv.asked
  cases hcurl : env.curl with
  | false =>
    rw [if_neg Bool.false_ne_true, wp_pure]
    refine ⟨?_, rfl⟩
    show s = ⟨Function.update s.files name none, s.requests ++ []⟩
    rw [update_absent hname, List.append_nil]
  | true =>
    rw [if_pos rfl, if_pos rfl, if_pos rfl]
    dsimp only
    rw [wp_bind, wp_writeBeside, wp_bind]
    refine wp_mono (performAll_spec 9 0) ?_ fun _ _ h => h.elim
    rintro _ s₁ ⟨rfl, hs₁⟩
    rw [wp_bind, wp_writeBeside]
    have hbeside : (if env.opens then Function.update s₁.files (name ++ of ".tmp")
        (some ((env.perform env.attempt).written.take env.room)) else s₁.files) =
          Function.update s.files (name ++ of ".tmp") env.beside := by
      rw [hs₁, GetFileEnv.beside]
      cases env.opens with
      | false =>
        exact (update_absent htmp).symm
      | true => exact Function.update_idem ..
    refine wp_mono (placeFile_spec (tmp_ne name) htmp hname hbeside) ?_ ?_
    · rintro r _ ⟨rfl, hr⟩
      rw [hs₁]
      exact ⟨rfl, hr⟩
    · rintro stop _ ⟨rfl, hstop⟩
      rw [hs₁]
      exact ⟨rfl, hstop⟩

/-- An old file is gone before a new one is asked for. -/
theorem wp_clearFile {Q : Unit → TrelloCache → Prop} {E : Stop → TrelloCache → Prop} :
    wp (guarded ((s.files name).isSome) (removeFile name)) Q E s ↔
      Q () {s with files := Function.update s.files name none} := by
  cases h : s.files name with
  | none =>
    rw [update_absent h]
    exact Iff.rfl
  | some _ => exact Iff.rfl

/-- The request a call of `get_file` makes to its cache. -/
def fetchOf (api : TrelloApi) (env : GetFileEnv) (url extension : Text) (force : Bool) :
    Fetch Text (List UInt8) (Option TrelloError) :=
  ⟨fileName api url extension, force, env.download⟩

/-- The cache after a request that asks the network so, if it has to. -/
def TrelloCache.next (s : TrelloCache) (f : Fetch Text (List UInt8) (Option TrelloError)) (asked : List CurlRequest) :
    TrelloCache :=
  ⟨s.files.fetch f, s.requests ++ if f.Downloads s.files then asked else []⟩

theorem getFileAs_spec (htmp : s.files (fileName api url extension ++ of ".tmp") = none) :
    wp (getFileAs api env url extension force)
      (fun r s' => s' = s.next (fetchOf api env url extension force) (env.asked api url) ∧
        r.mapError some = s.files.answer (fetchOf api env url extension force))
      (fun stop s' => s' = s.next (fetchOf api env url extension force) (env.asked api url) ∧
        s.files.answer (fetchOf api env url extension force) = .error none ∧ stop = .throws .stdException) s := by
  have hdownloads : (fetchOf api env url extension force).Downloads s.files ↔
      force = true ∨ s.files (fileName api url extension) = none := Iff.rfl
  unfold getFileAs TrelloCache.next
  rw [wp_bind, wp_get, wp_ite]
  constructor
  · rintro ⟨hsome, rfl⟩
    have hhit : ¬(fetchOf api env url extension false).Downloads s.files := by
      rw [hdownloads]
      rintro (h | h)
      · cases h
      · rw [h] at hsome
        cases hsome
    rw [Cache.fetch_hit hhit, Cache.answer_hit hhit, if_neg hhit, wp_pure, List.append_nil]
    exact ⟨rfl, rfl⟩
  · intro hmiss
    have hmiss : (fetchOf api env url extension force).Downloads s.files := by
      rw [hdownloads]
      cases force with
      | true => exact .inl rfl
      | false => exact .inr (Option.not_isSome_iff_eq_none.mp fun hsome => hmiss ⟨hsome, rfl⟩)
    rw [Cache.fetch_miss hmiss, Cache.answer_miss hmiss, if_pos hmiss, wp_bind, wp_clearFile]
    have hcleared := Function.update_self (fileName api url extension) none s.files
    have hbeside : Function.update s.files (fileName api url extension) none (fileName api url extension ++ of ".tmp") = none := by
      rw [Function.update_of_ne (tmp_ne _), htmp]
    refine wp_mono (downloadFile_spec hcleared hbeside) ?_ ?_
    · rintro r _ ⟨rfl, hr⟩
      rw [TrelloCache.brought, Function.update_idem]
      exact ⟨rfl, hr⟩
    · rintro stop _ ⟨rfl, hnone, hstop⟩
      rw [TrelloCache.brought, Function.update_idem]
      exact ⟨rfl, congrArg (Except.map fun _ => fileName api url extension) hnone, hstop⟩

end

/-! ### Runs of calls -/

/-- A call of the client, with what it meets. -/
inductive FileCall where
  | file (url : Text) (force : Bool) (env : GetFileEnv)
  | image (url : Text) (width height : Option Int) (force : Bool) (env : GetImageEnv)

/-- What a call returns; `none` stands for an exception. -/
def outcome (m : FilesM (Except TrelloError Text)) (s : TrelloCache) : Except (Option TrelloError) Text :=
  match m.run s with
  | .ok r _ => r.mapError some
  | .error _ _ => .error none

namespace FileCall

def run (api : TrelloApi) : FileCall → FilesM (Except TrelloError Text)
  | file url force env => getFile api env url force
  | image url width height force env => getImageFile api env url width height force

/-- The address the file is kept under. -/
def address : FileCall → Text
  | file url _ _ => url
  | image url width height _ _ => imageUrl url width height

def extension : FileCall → Text
  | file _ _ _ => of ".cache"
  | image _ _ _ _ _ => of ".bin"

/-- The request to the cache, unless the address cannot be made. -/
def fetch (api : TrelloApi) : FileCall → Option (Fetch Text (List UInt8) (Option TrelloError))
  | file url force env => some (fetchOf api env url (of ".cache") force)
  | image url width height force env =>
    if env.curl && env.escape then some (fetchOf api env.file (imageUrl url width height) (of ".bin") force) else none

/-- The requests to the network, if the file has to be downloaded. -/
def asked (api : TrelloApi) : FileCall → List CurlRequest
  | file url _ env => env.asked api url
  | image url width height _ env => env.file.asked api (imageUrl url width height)

end FileCall

/-- No file is left beside its place. -/
def TrelloCache.Settled (s : TrelloCache) : Prop := ∀ name, s.files (name ++ of ".tmp") = none

/-- The cache after these calls. -/
def TrelloCache.served (s : TrelloCache) (api : TrelloApi) (calls : List FileCall) : TrelloCache :=
  calls.foldl (fun s call => final (call.run api) s) s

section
variable {api : TrelloApi} {s t : TrelloCache} {call : FileCall} {calls : List FileCall} {name : Text}
variable {f : Fetch Text (List UInt8) (Option TrelloError)}

/-- What a specification says of the state reached and of the result. -/
theorem outcome_of_wp {m : FilesM (Except TrelloError Text)} {o : Except (Option TrelloError) Text}
    (h : wp m (fun r s' => s' = t ∧ r.mapError some = o)
      (fun stop s' => s' = t ∧ o = .error none ∧ stop = .throws .stdException) s) :
    final m s = t ∧ outcome m s = o := by
  unfold wp at h
  unfold final outcome
  cases hm : m.run s with
  | ok r s' =>
    rw [hm] at h
    exact h
  | error stop s' =>
    rw [hm] at h
    exact ⟨h.1, h.2.1.symm⟩

theorem FileCall.run_of_fetch (hs : s.Settled) (hf : call.fetch api = some f) :
    final (call.run api) s = s.next f (call.asked api) ∧ outcome (call.run api) s = s.files.answer f := by
  cases call with
  | file url force env =>
    cases hf
    exact outcome_of_wp (getFileAs_spec (hs _))
  | image url width height force env =>
    rw [fetch] at hf
    split at hf
    case isTrue hready =>
      cases hf
      rw [run, getImageFile, if_pos hready]
      exact outcome_of_wp (getFileAs_spec (hs _))
    case isFalse => cases hf

theorem FileCall.run_of_no_fetch (hf : call.fetch api = none) :
    final (call.run api) s = s ∧ outcome (call.run api) s = .error (some .unknown) := by
  cases call with
  | file url force env => cases hf
  | image url width height force env =>
    rw [fetch] at hf
    split at hf
    case isTrue => cases hf
    case isFalse hready =>
      rw [run, getImageFile, if_neg hready]
      exact ⟨rfl, rfl⟩

theorem FileCall.fetch_key (hf : call.fetch api = some f) : f.key = fileName api call.address call.extension := by
  cases call with
  | file url force env =>
    cases hf
    rfl
  | image url width height force env =>
    rw [fetch] at hf
    split at hf
    case isTrue =>
      cases hf
      rfl
    case isFalse => cases hf

theorem getLast?_fileName (api : TrelloApi) (url : Text) {extension : Text} {c : Char}
    (h : extension.getLast? = some c) : (fileName api url extension).getLast? = some c := by
  rw [fileName, List.getLast?_append, h, Option.some_or]

/-- A file in its place is not one beside. -/
theorem FileCall.key_ne_tmp (hf : call.fetch api = some f) (name : Text) : name ++ of ".tmp" ≠ f.key := by
  intro h
  have hlast := congrArg List.getLast? h
  rw [fetch_key hf, List.getLast?_append] at hlast
  cases call with
  | file url force env =>
    rw [getLast?_fileName api _ rfl] at hlast
    cases hlast
  | image url width height force env =>
    rw [getLast?_fileName api _ rfl] at hlast
    cases hlast

theorem FileCall.settled (api : TrelloApi) (call : FileCall) (hs : s.Settled) : (final (call.run api) s).Settled := by
  intro name
  cases hf : call.fetch api with
  | none =>
    rw [(run_of_no_fetch hf).1]
    exact hs name
  | some f =>
    rw [(run_of_fetch hs hf).1]
    exact (Cache.fetch_ne (key_ne_tmp hf name)).trans (hs name)

theorem TrelloCache.served_settled (api : TrelloApi) (hs : s.Settled) (calls : List FileCall) : (s.served api calls).Settled := by
  induction calls generalizing s with
  | nil => exact hs
  | cons call calls ih => exact ih (FileCall.settled api call hs)

theorem TrelloCache.served_files (hs : s.Settled) (calls : List FileCall) :
    (s.served api calls).files = s.files.after (calls.filterMap (FileCall.fetch api)) := by
  induction calls generalizing s with
  | nil => rfl
  | cons call calls ih =>
    have hrest := ih (FileCall.settled api call hs)
    rw [List.filterMap_cons]
    cases hf : call.fetch api with
    | none =>
      rw [(FileCall.run_of_no_fetch hf).1] at hrest
      rw [TrelloCache.served, List.foldl_cons, (FileCall.run_of_no_fetch hf).1]
      exact hrest
    | some f =>
      rw [(FileCall.run_of_fetch hs hf).1] at hrest
      rw [TrelloCache.served, List.foldl_cons, (FileCall.run_of_fetch hs hf).1]
      exact hrest

theorem TrelloCache.settled_empty : ({} : TrelloCache).Settled := fun _ => rfl

/-- **The directory is a cache.** After any calls the next one is answered, and has left it, as the cache of the files
in their places says, and no file is left beside its place. -/
theorem files_refine (hs : s.Settled) (calls : List FileCall) (call : FileCall) :
    (s.served api calls).Settled ∧
      (s.served api calls).files = s.files.after (calls.filterMap (FileCall.fetch api)) ∧
      outcome (call.run api) (s.served api calls) =
        (call.fetch api).elim (.error (some .unknown)) (s.served api calls).files.answer := by
  have hsettled := TrelloCache.served_settled api hs calls
  refine ⟨hsettled, TrelloCache.served_files hs calls, ?_⟩
  cases hf : call.fetch api with
  | none => exact (FileCall.run_of_no_fetch hf).2
  | some f => exact (FileCall.run_of_fetch hsettled hf).2

/-- A client; the digest is that of one address. -/
def boardApi : TrelloApi where
  apiKey := of "key"
  userToken := of "token"
  evpSha1 _ := [216, 110, 161, 28, 17, 12, 10, 216, 166, 197, 134, 24, 95, 137, 106, 120, 185, 179, 40, 115]

def board : Text := of "1/boards/b1"

/-- A host that is found at the second attempt. -/
def secondAttempt (statusRead : Int) (written : List UInt8) : GetFileEnv where
  curl := true
  opens := true
  room := 1000
  perform i := if i = 0 then .unresolved else .completed written
  statusRead

theorem files_refine_board :
    let s := ({} : TrelloCache).served boardApi [.file board false (secondAttempt 200 [1])]
    s.Settled ∧
      s.files = ({} : TrelloCache).files.after
        ([.file board false (secondAttempt 200 [1])].filterMap (FileCall.fetch boardApi)) ∧
      outcome (FileCall.run boardApi (.file board true (secondAttempt 404 []))) s =
        (FileCall.fetch boardApi (.file board true (secondAttempt 404 []))).elim (.error (some .unknown)) s.files.answer :=
  files_refine TrelloCache.settled_empty [.file board false (secondAttempt 200 [1])] (.file board true (secondAttempt 404 []))

theorem TrelloCache.served_append (s : TrelloCache) (api : TrelloApi) (calls calls' : List FileCall) :
    s.served api (calls ++ calls') = (s.served api calls).served api calls' :=
  List.foldl_append ..

/-- The call asks the network for the file of a name. -/
def FileCall.Downloads (call : FileCall) (api : TrelloApi) (name : Text) (s : TrelloCache) : Prop :=
  ∃ f, call.fetch api = some f ∧ f.key = name ∧ f.Downloads s.files

/-- None of these calls does. -/
def TrelloCache.Quiet (s : TrelloCache) (api : TrelloApi) (name : Text) (calls : List FileCall) : Prop :=
  ∀ pre call post, calls = pre ++ call :: post → ¬call.Downloads api name (s.served api pre)

theorem TrelloCache.quiet_iff (hs : s.Settled) (calls : List FileCall) :
    s.Quiet api name calls ↔ s.files.Quiet name (calls.filterMap (FileCall.fetch api)) := by
  constructor
  · intro h pre f post hsplit hk hd
    obtain ⟨before, rest, rfl, rfl, hrest⟩ := List.filterMap_eq_append_iff.mp hsplit
    obtain ⟨skipped, call, after, rfl, hskipped, hcall, -⟩ := List.filterMap_eq_cons_iff.mp hrest
    refine h (before ++ skipped) call after (List.append_assoc ..).symm ⟨f, hcall, hk, ?_⟩
    rw [served_files hs, List.filterMap_append, List.filterMap_eq_nil_iff.mpr hskipped, List.append_nil]
    exact hd
  · rintro h pre call post rfl ⟨f, hcall, hk, hd⟩
    refine h (pre.filterMap (FileCall.fetch api)) f (post.filterMap (FileCall.fetch api)) ?_ hk ?_
    · rw [List.filterMap_append, List.filterMap_cons_some hcall]
    · rw [served_files hs] at hd
      exact hd

/-- What is in a place after any calls. -/
theorem TrelloCache.served_latest (api : TrelloApi) (hs : s.Settled) (calls : List FileCall) (name : Text) :
    (s.Quiet api name calls ∧ (s.served api calls).files name = s.files name) ∨
      ∃ pre c post f, calls = pre ++ c :: post ∧ c.fetch api = some f ∧ f.key = name ∧
        f.Downloads (s.served api pre).files ∧ (s.served api (pre ++ [c])).Quiet api name post ∧
        (s.served api calls).files name = f.download.toOption := by
  rw [quiet_iff hs, served_files hs calls]
  refine (Cache.after_eq s.files name _).imp_right ?_
  rintro ⟨pre, f, post, hsplit, hk, hdownloads, hquiet, hvalue⟩
  obtain ⟨before, rest, rfl, rfl, hrest⟩ := List.filterMap_eq_append_iff.mp hsplit
  obtain ⟨skipped, c, after, rfl, hskipped, hc, rfl⟩ := List.filterMap_eq_cons_iff.mp hrest
  have hpre : (before ++ skipped).filterMap (FileCall.fetch api) = before.filterMap (FileCall.fetch api) := by
    rw [List.filterMap_append, List.filterMap_eq_nil_iff.mpr hskipped, List.append_nil]
  refine ⟨before ++ skipped, c, after, f, (List.append_assoc ..).symm, hc, hk, ?_, ?_, hvalue⟩
  · rw [served_files hs, hpre]
    exact hdownloads
  · rw [quiet_iff (served_settled api hs _), served_files hs, List.filterMap_append, hpre, List.filterMap_cons_some hc]
    exact hquiet

/-- The file in a place holds what the last download for its name brought, in these calls, or what it held before
them. -/
def TrelloCache.HoldsLatest (s : TrelloCache) (api : TrelloApi) (name : Text) (calls : List FileCall) : Prop :=
  ∃ bytes, (s.served api calls).files name = some bytes ∧
    (s.files name = some bytes ∧ s.Quiet api name calls ∨
      ∃ pre c post f, calls = pre ++ c :: post ∧ c.fetch api = some f ∧ f.key = name ∧
        f.Downloads (s.served api pre).files ∧ f.download = .ok bytes ∧ (s.served api (pre ++ [c])).Quiet api name post)

/-- **A file that is answered is the latest one.** After any calls, it holds what the last download for its name
brought. -/
theorem file_latest (hs : s.Settled) (hanswer : outcome (call.run api) (s.served api calls) = .ok name) :
    s.HoldsLatest api name (calls ++ [call]) := by
  have hsettled := TrelloCache.served_settled api hs calls
  have hplaced : ((s.served api (calls ++ [call])).files name).isSome := by
    rw [TrelloCache.served_append]
    cases hf : call.fetch api with
    | none =>
      rw [(FileCall.run_of_no_fetch hf).2] at hanswer
      cases hanswer
    | some f =>
      obtain ⟨hfinal, hresult⟩ := FileCall.run_of_fetch hsettled hf
      rw [hresult] at hanswer
      show ((final (call.run api) (s.served api calls)).files name).isSome
      rw [hfinal]
      exact (Cache.answer_eq_ok_iff.mp hanswer).2
  obtain ⟨bytes, hbytes⟩ := Option.isSome_iff_exists.mp hplaced
  refine ⟨bytes, hbytes, ?_⟩
  rcases TrelloCache.served_latest api hs (calls ++ [call]) name with
    ⟨hquiet, hsame⟩ | ⟨pre, c, post, f, hsplit, hc, hk, hdownloads, hquiet, hvalue⟩
  · exact .inl ⟨hsame.symm.trans hbytes, hquiet⟩
  · refine .inr ⟨pre, c, post, f, hsplit, hc, hk, hdownloads, ?_, hquiet⟩
    rw [hbytes] at hvalue
    cases hd : f.download with
    | ok v =>
      rw [hd] at hvalue
      cases hvalue
      rfl
    | error e =>
      rw [hd] at hvalue
      cases hvalue

theorem file_latest_board : ({} : TrelloCache).HoldsLatest boardApi (fileName boardApi board (of ".cache"))
    ([.file board false (secondAttempt 200 [1])] ++ [.file board true (secondAttempt 200 [2])]) :=
  file_latest TrelloCache.settled_empty (by decide +kernel)

/-- **A file nobody demands anew stays.** It is answered without a request, and nothing changes. -/
theorem file_kept {bytes : List UInt8} (hs : s.Settled) (hname : s.files name = some bytes)
    (hunforced : ∀ c ∈ calls, ∀ f, c.fetch api = some f → f.key = name → f.force = false)
    (hf : call.fetch api = some f) (hk : f.key = name) (hforce : f.force = false) :
    s.Quiet api name calls ∧ outcome (call.run api) (s.served api calls) = .ok name ∧
      final (call.run api) (s.served api calls) = s.served api calls ∧ (s.served api calls).files name = some bytes := by
  have hquiet : s.files.Quiet name (calls.filterMap (FileCall.fetch api)) := by
    refine Cache.quiet_of_unforced (hname ▸ Option.some_ne_none bytes) ?_
    intro g hg
    obtain ⟨c, hc, hcg⟩ := List.mem_filterMap.mp hg
    exact hunforced c hc g hcg
  have hkept : (s.served api calls).files name = some bytes := by
    rw [TrelloCache.served_files hs, Cache.after_quiet hquiet, hname]
  have hhit : ¬f.Downloads (s.served api calls).files := by
    rintro (h | h)
    · rw [hforce] at h
      cases h
    · rw [hk, hkept] at h
      cases h
  obtain ⟨hfinal, hresult⟩ := FileCall.run_of_fetch (TrelloCache.served_settled api hs calls) hf
  refine ⟨(TrelloCache.quiet_iff hs calls).mpr hquiet, ?_, ?_, hkept⟩
  · rw [hresult, Cache.answer_hit hhit, hk]
  · rw [hfinal, TrelloCache.next, Cache.fetch_hit hhit, if_neg hhit, List.append_nil]

theorem file_kept_board :
    let s := ({} : TrelloCache).served boardApi [.file board false (secondAttempt 200 [1])]
    let calls := [FileCall.file board false (secondAttempt 500 [])]
    let call := FileCall.file board false (secondAttempt 200 [2])
    s.Quiet boardApi (fileName boardApi board (of ".cache")) calls ∧
      outcome (call.run boardApi) (s.served boardApi calls) = .ok (fileName boardApi board (of ".cache")) ∧
      final (call.run boardApi) (s.served boardApi calls) = s.served boardApi calls ∧
      (s.served boardApi calls).files (fileName boardApi board (of ".cache")) = some [1] := by
  intro s calls call
  have hunforced : ∀ c ∈ calls, ∀ f, c.fetch boardApi = some f → f.key = fileName boardApi board (of ".cache") →
      f.force = false := by
    intro c hc f hf _
    obtain rfl := List.mem_singleton.mp hc
    cases hf
    rfl
  have hsettled := TrelloCache.served_settled boardApi TrelloCache.settled_empty
    [.file board false (secondAttempt 200 [1])]
  exact file_kept hsettled (by decide +kernel) hunforced rfl rfl rfl

/-! ### Requests -/

theorem length_asked_le (api : TrelloApi) (env : GetFileEnv) (url : Text) : (env.asked api url).length ≤ 10 := by
  rw [GetFileEnv.asked]
  split
  · have hattempt := (lastAttempt_bounds env.perform 9 0).2
    rw [List.length_replicate, GetFileEnv.attempt]
    omega
  · exact Nat.zero_le 10

theorem mem_asked {env : GetFileEnv} {url : Text} {r : CurlRequest} (h : r ∈ env.asked api url) :
    r = ⟨fullUrl url, authorizationHeader api⟩ := by
  rw [GetFileEnv.asked] at h
  split at h
  · exact List.eq_of_mem_replicate h
  · cases h

theorem FileCall.length_asked_le (call : FileCall) : (call.asked api).length ≤ 10 := by
  cases call with
  | file url force env => exact Chanserv.length_asked_le api env url
  | image url width height force env => exact Chanserv.length_asked_le api env.file (imageUrl url width height)

theorem FileCall.mem_asked {r : CurlRequest} (h : r ∈ call.asked api) :
    r = ⟨fullUrl call.address, authorizationHeader api⟩ := by
  cases call with
  | file url force env => exact Chanserv.mem_asked h
  | image url width height force env => exact Chanserv.mem_asked h

/-- A call asks the network for its own address, or not at all. -/
theorem FileCall.run_requests (api : TrelloApi) (call : FileCall) (hs : s.Settled) :
    ∃ rs, (final (call.run api) s).requests = s.requests ++ rs ∧ rs.length ≤ 10 ∧
      ∀ r ∈ rs, r = ⟨fullUrl call.address, authorizationHeader api⟩ := by
  cases hf : call.fetch api with
  | none =>
    refine ⟨[], ?_, Nat.zero_le 10, List.forall_mem_nil _⟩
    rw [(run_of_no_fetch hf).1, List.append_nil]
  | some f =>
    rw [(run_of_fetch hs hf).1]
    refine ⟨_, rfl, ?_⟩
    split
    · exact ⟨length_asked_le call, fun r hr => mem_asked hr⟩
    · exact ⟨Nat.zero_le 10, List.forall_mem_nil _⟩

theorem TrelloCache.served_requests (api : TrelloApi) (hs : s.Settled) (calls : List FileCall) :
    ∃ rs, (s.served api calls).requests = s.requests ++ rs ∧ rs.length ≤ 10 * calls.length ∧
      ∀ r ∈ rs, ∃ c ∈ calls, r = ⟨fullUrl c.address, authorizationHeader api⟩ := by
  induction calls generalizing s with
  | nil => exact ⟨[], (List.append_nil _).symm, Nat.zero_le _, List.forall_mem_nil _⟩
  | cons call calls ih =>
    obtain ⟨first, hfirst, hten, hown⟩ := FileCall.run_requests api call hs
    obtain ⟨rest, hrest, hmost, hothers⟩ := ih (FileCall.settled api call hs)
    refine ⟨first ++ rest, ?_, ?_, ?_⟩
    · rw [served, List.foldl_cons, ← List.append_assoc, ← hfirst]
      exact hrest
    · rw [List.length_append, List.length_cons]
      omega
    · intro r hr
      rcases List.mem_append.mp hr with hr | hr
      · exact ⟨call, List.mem_cons_self, hown r hr⟩
      · obtain ⟨c, hc, heq⟩ := hothers r hr
        exact ⟨c, List.mem_cons_of_mem call hc, heq⟩

end

end Chanserv
