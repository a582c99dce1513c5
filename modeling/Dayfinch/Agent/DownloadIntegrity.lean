/-
# Dayfinch.Agent.DownloadIntegrity -- what a check and a download leave behind

`check` offers a release only out of an object whose canonical JSON the signature was verified for, and only
a newer one. `download` is followed statement by statement: `stage_run` says what the `try` statement leaves
in the directory, and `cleanUp_run` what the `finally` removes. The two conditions on the way are `Created`,
that the temporary file comes to exist, and `Replaced`, that it becomes the target.

The temporary file stays behind exactly when it is created, does not become the target, and closing the
response or removing the file raises: the `finally` closes the response first and does not guard that call,
so an error there skips the removal.
-/
import Dayfinch.Agent.UpdateClient

namespace Dayfinch

namespace Agent.UpdateClient

open Library (Procedure)
open Library.Idna (Chars Unicode)
open Library.Urls (SplitResult ValueError urlsplit)
open Library.Procedure (run_bind run_bind_ok run_bind_error Keeps)

variable {env : Environment}

/-! ## The URLs that are contacted -/

/-- The URL is HTTPS, or plain HTTP to the machine itself. -/
def SafeUrl (env : Environment) (url : Chars) : Prop :=
  ∃ parsed, urlsplit env.unicode env.isIPv6 url = .ok parsed ∧
    (parsed.scheme = "https".toList ∨
      (parsed.scheme = "http".toList ∧ ∃ host ∈ parsed.hostname env.unicode,
        env.unicode.lower host ∈ ["localhost".toList, "127.0.0.1".toList, "::1".toList]))

theorem mapError_eq_ok {ε ε' α : Type} {f : ε → ε'} {x : Except ε α} {a : α} :
    x.mapError f = .ok a ↔ x = .ok a := by
  cases x with
  | error e => exact ⟨(by intro h; cases h), (by intro h; cases h)⟩
  | ok b => exact ⟨fun h => congrArg _ (Except.ok.inj h), fun h => congrArg _ (Except.ok.inj h)⟩

theorem safeUrl_of_validate {url : Chars} (h : validateUpdateUrl env url = .ok ()) : SafeUrl env url := by
  unfold validateUpdateUrl at h
  obtain ⟨parsed, hparsed, h⟩ := Library.bind_eq_ok.mp h
  refine ⟨parsed, mapError_eq_ok.mp hparsed, ?_⟩
  dsimp only at h
  split at h
  next => cases h
  next hform =>
    rw [not_or, not_not, not_or] at hform
    rcases List.mem_cons.mp hform.1 with hhttp | hhttps
    · rw [if_pos hhttp] at h
      split at h
      next => cases h
      next hloopback =>
        rw [not_not] at hloopback
        obtain ⟨host, hhost⟩ := Option.ne_none_iff_exists'.mp hform.2.1
        rw [hhost] at hloopback
        refine Or.inr ⟨hhttp, host, hhost, ?_⟩
        simpa using hloopback
    · exact Or.inl (List.mem_singleton.mp hhttps)

/-- Whatever is contacted is safe. -/
def ContactsSafely (env : Environment) (w w' : World) : Prop :=
  ∀ url ∈ w'.contacted, url ∈ w.contacted ∨ SafeUrl env url

theorem ContactsSafely.refl (w : World) : ContactsSafely env w w := fun _ h => Or.inl h

theorem ContactsSafely.trans (w w' w'' : World) (h : ContactsSafely env w w')
    (h' : ContactsSafely env w' w'') : ContactsSafely env w w'' := by
  intro url hurl
  rcases h' url hurl with hold | hsafe
  · exact h url hold
  · exact Or.inr hsafe

theorem io_run (step : IoStep) (w : World) : (io env step w).2 = w := by
  unfold io
  split <;> rfl

theorem io_keeps {R : World → World → Prop} (hrefl : ∀ w, R w w) (step : IoStep) :
    Keeps R (io env step) := by
  intro w
  rw [io_run]
  exact hrefl w

theorem send_keeps {url : Chars} (h : SafeUrl env url) : Keeps (ContactsSafely env) (send env url) := by
  intro w
  have hcontacted : (send env url w).2.contacted = w.contacted ++ [url] := by
    unfold send
    dsimp only
    split <;> rfl
  intro url' hurl
  rw [hcontacted] at hurl
  rcases List.mem_append.mp hurl with hold | hnew
  · exact Or.inl hold
  · rw [List.mem_singleton.mp hnew]
    exact Or.inr h

theorem visit_keeps (final : Bool) (url : Chars) : Keeps (ContactsSafely env) (visit env final url) := by
  intro w
  unfold visit
  cases hvalid : validateUpdateUrl env url with
  | error e => exact ContactsSafely.refl w
  | ok u =>
    refine Keeps.bind ContactsSafely.trans (send_keeps (safeUrl_of_validate hvalid)) ?_ w
    rintro ⟨response, request⟩
    dsimp only
    split
    · exact Library.Procedure.keeps_pure ContactsSafely.refl _
    · refine Keeps.bind ContactsSafely.trans (io_keeps ContactsSafely.refl _) fun _ => ?_
      split
      · exact Library.Procedure.keeps_raise ContactsSafely.refl _
      · split
        · exact Library.Procedure.keeps_raise ContactsSafely.refl _
        · refine Keeps.bind ContactsSafely.trans
            (Library.Procedure.keeps_lift ContactsSafely.refl _) fun destination => ?_
          refine Keeps.bind ContactsSafely.trans
            (Library.Procedure.keeps_lift ContactsSafely.refl _) fun _ => ?_
          exact Library.Procedure.keeps_pure ContactsSafely.refl _

/-- **Every URL is validated before it is contacted**, the destinations of redirects included. -/
theorem getFrom_keeps (left : Nat) : ∀ url, Keeps (ContactsSafely env) (getFrom env left url) := by
  induction left with
  | zero => exact fun url => Library.Procedure.keeps_raise ContactsSafely.refl _
  | succ left ih =>
    intro url
    refine Keeps.bind ContactsSafely.trans (visit_keeps _ url) fun visited => ?_
    cases visited with
    | inl response => exact Library.Procedure.keeps_pure ContactsSafely.refl _
    | inr destination => exact ih destination

/-! ## What is offered -/

/-- The signed part of a manifest. -/
def signedPart (payload : List (String × Json)) : List (String × Json) := payload.filter (·.1 != "signature")

/-- The release is spelled out by a signed object: the signature is one of the canonical JSON of the
object, every field of the release is a field of it, and the release is newer than the client. -/
structure SignedRelease (env : Environment) (client : Client) (signed : List (String × Json))
    (signature : Bytes) (update : AvailableUpdate) : Prop where
  verified : signature.length = 64 ∧ env.verify signature (env.dumps signed) = true
  version : Json.get signed "version" = some (.string update.version)
  published : Json.get signed "published_at" = some (.string update.publishedAt)
  platform : update.artifact.platform = client.platformName
  artifact : ∃ artifacts fields, Json.get signed "artifacts" = some (.object artifacts) ∧
    Json.get artifacts client.platformName = some (.object fields) ∧
    Json.get fields "filename" = some (.string update.artifact.filename) ∧
    Json.get fields "url" = some (.string update.artifact.url) ∧
    Json.get fields "sha256" = some (.string update.artifact.sha256) ∧
    Json.get fields "size" = some (.integer update.artifact.size)
  safe : SafeUrl env update.artifact.url.toList
  newer : ∃ candidate current, SemverGrammar update.version candidate ∧
    SemverGrammar client.currentVersion current ∧ HigherPrecedence candidate current

theorem get_signedPart {payload : List (String × Json)} {key : String} (h : key ≠ "signature") :
    Json.get (signedPart payload) key = Json.get payload key := by
  unfold Json.get signedPart
  rw [List.find?_filter]
  congr 2
  funext field
  by_cases hkey : field.1 = key
  · rw [hkey]
    simp [h]
  · simp [hkey]

theorem asString_eq_ok {value : Option Json} {message text : String}
    (h : asString value message = .ok text) : value = some (.string text) := by
  unfold asString at h
  split at h
  next => rw [Except.ok.inj h]
  next => cases h

theorem asObject_eq_ok {value : Option Json} {message : String} {fields : List (String × Json)}
    (h : asObject value message = .ok fields) : value = some (.object fields) := by
  unfold asObject at h
  split at h
  next => rw [Except.ok.inj h]
  next => cases h

theorem asInteger_eq_ok {value : Option Json} {message : String} {n : Int}
    (h : asInteger value message = .ok n) : value = some (.integer n) := by
  unfold asInteger at h
  split at h
  next => rw [Except.ok.inj h]
  next => cases h

theorem refuse_eq_ok {condition : Prop} [Decidable condition] {message : String} {u : Unit}
    (h : refuse condition message = .ok u) : ¬ condition := by
  intro hcondition
  rw [refuse, if_pos hcondition] at h
  cases h

theorem parseArtifact_spec {platform : String} {fields : List (String × Json)} {artifact : UpdateArtifact}
    (h : parseArtifact env platform fields = .ok artifact) :
    artifact.platform = platform ∧ Json.get fields "filename" = some (.string artifact.filename) ∧
      Json.get fields "url" = some (.string artifact.url) ∧
      Json.get fields "sha256" = some (.string artifact.sha256) ∧
      Json.get fields "size" = some (.integer artifact.size) ∧ SafeUrl env artifact.url.toList := by
  unfold parseArtifact at h
  obtain ⟨filename, hfilename, h⟩ := Library.bind_eq_ok.mp h
  obtain ⟨_, _, h⟩ := Library.bind_eq_ok.mp h
  obtain ⟨url, hurl, h⟩ := Library.bind_eq_ok.mp h
  obtain ⟨_, hvalid, h⟩ := Library.bind_eq_ok.mp h
  obtain ⟨digest, hdigest, h⟩ := Library.bind_eq_ok.mp h
  obtain ⟨_, _, h⟩ := Library.bind_eq_ok.mp h
  obtain ⟨size, hsize, h⟩ := Library.bind_eq_ok.mp h
  obtain ⟨_, _, h⟩ := Library.bind_eq_ok.mp h
  cases Except.ok.inj h
  exact ⟨rfl, asString_eq_ok hfilename, asString_eq_ok hurl, asString_eq_ok hdigest, asInteger_eq_ok hsize,
    safeUrl_of_validate hvalid⟩

theorem decodeBase64url_spec {value label : String} {n : Nat} {decoded : Bytes}
    (h : decodeBase64url env value n label = .ok decoded) : decoded.length = n := by
  unfold decodeBase64url at h
  split at h
  next => cases h
  next =>
    split at h
    next => cases h
    next hlength =>
      cases Except.ok.inj h
      exact not_not.mp hlength

/-- A release that is offered is signed. -/
theorem readRelease_spec {client : Client} {data : Bytes} {update : AvailableUpdate}
    (h : readRelease env client data = .ok (some update)) :
    ∃ signed signature, SignedRelease env client signed signature update := by
  unfold readRelease at h
  obtain ⟨_, _, h⟩ := Library.bind_eq_ok.mp h
  obtain ⟨payload, _, h⟩ := Library.bind_eq_ok.mp h
  obtain ⟨_, _, h⟩ := Library.bind_eq_ok.mp h
  obtain ⟨text, _, h⟩ := Library.bind_eq_ok.mp h
  obtain ⟨signature, hdecoded, h⟩ := Library.bind_eq_ok.mp h
  obtain ⟨_, hverified, h⟩ := Library.bind_eq_ok.mp h
  unfold readUpdate at h
  obtain ⟨version, hversion, h⟩ := Library.bind_eq_ok.mp h
  obtain ⟨publishedAt, hpublished, h⟩ := Library.bind_eq_ok.mp h
  obtain ⟨artifacts, hartifacts, h⟩ := Library.bind_eq_ok.mp h
  obtain ⟨_, _, h⟩ := Library.bind_eq_ok.mp h
  obtain ⟨_, _, h⟩ := Library.bind_eq_ok.mp h
  obtain ⟨newer, hnewer, h⟩ := Library.bind_eq_ok.mp h
  cases newer with
  | false => cases h
  | true =>
    obtain ⟨fields, hfields, h⟩ := Library.bind_eq_ok.mp h
    obtain ⟨artifact, hartifact, h⟩ := Library.bind_eq_ok.mp h
    cases Except.ok.inj h
    obtain ⟨hplatform, hfilename, hurl, hdigest, hsize, hsafe⟩ := parseArtifact_spec hartifact
    refine ⟨signedPart payload, signature, ?_⟩
    exact {
      verified := ⟨decodeBase64url_spec hdecoded, (Bool.not_eq_false _).mp (refuse_eq_ok hverified)⟩
      version := (get_signedPart (by decide)).trans (asString_eq_ok hversion)
      published := (get_signedPart (by decide)).trans (asString_eq_ok hpublished)
      platform := hplatform
      artifact := ⟨artifacts, fields, (get_signedPart (by decide)).trans (asObject_eq_ok hartifacts),
        asObject_eq_ok hfields, hfilename, hurl, hdigest, hsize⟩
      safe := hsafe
      newer := versionIsNewer_eq_true (mapError_eq_ok.mp hnewer) }

/-- **A check offers signed releases only.** -/
theorem check_spec {client : Client} {w : World} {update : AvailableUpdate}
    (h : (check env client w).1 = .ok (some update)) :
    ∃ signed signature, SignedRelease env client signed signature update := by
  obtain ⟨⟨response, request⟩, _, h⟩ := Library.Procedure.bind_eq_ok h
  obtain ⟨data, _, h⟩ := Library.Procedure.bind_eq_ok h
  exact readRelease_spec h

theorem check_keeps (client : Client) : Keeps (ContactsSafely env) (check env client) := by
  refine Keeps.bind ContactsSafely.trans (getFrom_keeps _ _) ?_
  rintro ⟨response, request⟩
  refine Keeps.bind ContactsSafely.trans (Keeps.withCleanup ContactsSafely.trans ?_ ?_) fun data => ?_
  · exact Library.Procedure.keeps_lift ContactsSafely.refl _
  · exact io_keeps ContactsSafely.refl _
  · exact Library.Procedure.keeps_lift ContactsSafely.refl _

/-! ## Writing the temporary file -/

theorem io_ok {step : IoStep} (h : env.fails step = false) (w : World) : io env step w = (.ok (), w) := by
  rw [io, if_neg (by rw [h]; exact Bool.false_ne_true)]

theorem io_fails {step : IoStep} (h : env.fails step = true) (w : World) :
    io env step w = (.error (.os step), w) := if_pos h

/-- An operation in front of the rest. -/
theorem io_bind {α : Type} (step : IoStep) (f : Unit → Procedure World Raised α) (w : World) :
    (io env step >>= f) w = if env.fails step = true then (.error (.os step), w) else f () w := by
  by_cases h : env.fails step = true
  · rw [if_pos h, run_bind_error (io_fails h w)]
  · rw [if_neg h, run_bind_ok (io_ok (Bool.not_eq_true _ ▸ h) w)]

/-- An operation as a cleanup. -/
theorem withCleanup_io {α : Type} (x : Procedure World Raised α) (step : IoStep) (w : World) :
    Procedure.withCleanup x (io env step) w =
      if env.fails step = true then (.error (.os step), (x w).2) else x w := by
  unfold Procedure.withCleanup
  by_cases h : env.fails step = true
  · rw [if_pos h, io_fails h]
  · rw [if_neg h, io_ok (Bool.not_eq_true _ ▸ h)]

/-- The world with a file of the directory as given. -/
def World.withFile (w : World) (name : String) (bytes : Bytes) : World :=
  { w with files := put w.files name (some (.file bytes)) }

theorem withFile_withFile (w : World) (name : String) (bytes bytes' : Bytes) :
    (w.withFile name bytes).withFile name bytes' = w.withFile name bytes' := by
  unfold World.withFile put
  dsimp only
  rw [Function.update_idem]

/-- The writes of the chunks from a place on succeed. -/
def WritesFrom (env : Environment) (i : Nat) (chunks : List Bytes) : Prop :=
  ∀ k < chunks.length, env.fails (.write (i + k)) = false

theorem writesFrom_cons {i : Nat} {chunk : Bytes} {chunks : List Bytes} :
    WritesFrom env i (chunk :: chunks) ↔ env.fails (.write i) = false ∧ WritesFrom env (i + 1) chunks := by
  constructor
  · intro h
    refine ⟨h 0 (Nat.succ_pos _), fun k hk => ?_⟩
    rw [Nat.add_right_comm]
    exact h (k + 1) (Nat.succ_lt_succ hk)
  · rintro ⟨hfirst, hrest⟩ k hk
    cases k with
    | zero => exact hfirst
    | succ k =>
      rw [← Nat.add_assoc, Nat.add_right_comm]
      exact hrest k (Nat.lt_of_succ_lt_succ hk)

/-- The loop writes to the temporary file only, and when it ends all chunks are in it. -/
theorem writeChunks_run (env : Environment) (artifact : UpdateArtifact) (part : String) (chunks : List Bytes) :
    ∀ (i : Nat) (data : Bytes) (w : World),
      (∃ content, (writeChunks env artifact part i data chunks (w.withFile part data)).2 =
        w.withFile part content ∧
        ∀ written, (writeChunks env artifact part i data chunks (w.withFile part data)).1 = .ok written →
          written = data ++ chunks.flatten ∧ content = written ∧ WritesFrom env i chunks) ∧
      (WritesFrom env i chunks → ((data ++ chunks.flatten).length : Int) ≤ artifact.size →
        (writeChunks env artifact part i data chunks (w.withFile part data)).1 =
          .ok (data ++ chunks.flatten)) := by
  induction chunks with
  | nil =>
    intro i data w
    refine ⟨⟨data, rfl, fun written h => ?_⟩, fun _ _ => ?_⟩
    · cases Except.ok.inj h
      exact ⟨(List.append_nil data).symm, rfl, fun k hk => absurd hk (Nat.not_lt_zero k)⟩
    · exact congrArg Except.ok (List.append_nil data).symm
  | cons chunk chunks ih =>
    intro i data w
    have hflatten : data ++ (chunk :: chunks).flatten = (data ++ chunk) ++ chunks.flatten := by
      rw [List.flatten_cons, List.append_assoc]
    by_cases hlarge : ((data ++ chunk).length : Int) > artifact.size
    · have hrun : writeChunks env artifact part i data (chunk :: chunks) (w.withFile part data) =
          (.error (updateError "Downloaded update is larger than the manifest"), w.withFile part data) := by
        rw [writeChunks, if_pos hlarge]
        rfl
      rw [hrun]
      refine ⟨⟨data, rfl, by intro written h; cases h⟩, fun _ hsize => ?_⟩
      rw [hflatten, List.length_append] at hsize
      push_cast at hsize
      omega
    · cases hwrite : env.fails (.write i) with
      | true =>
        have hrun : writeChunks env artifact part i data (chunk :: chunks) (w.withFile part data) =
            (.error (.os (.write i)), w.withFile part data) := by
          rw [writeChunks, if_neg hlarge, run_bind_error (io_fails hwrite _)]
        rw [hrun]
        refine ⟨⟨data, rfl, by intro written h; cases h⟩, fun hwrites _ => ?_⟩
        rw [(writesFrom_cons.mp hwrites).1] at hwrite
        cases hwrite
      | false =>
        have hrun : writeChunks env artifact part i data (chunk :: chunks) (w.withFile part data) =
            writeChunks env artifact part (i + 1) (data ++ chunk) chunks (w.withFile part (data ++ chunk)) := by
          rw [writeChunks, if_neg hlarge, run_bind_ok (io_ok hwrite _)]
          exact congrArg (writeChunks env artifact part (i + 1) (data ++ chunk) chunks)
            (withFile_withFile w part data (data ++ chunk))
        obtain ⟨⟨content, hworld, hwritten⟩, hwrites⟩ := ih (i + 1) (data ++ chunk) w
        rw [hrun]
        refine ⟨⟨content, hworld, fun written h => ?_⟩, fun h hsize => ?_⟩
        · obtain ⟨heq, hcontent, hrest⟩ := hwritten written h
          exact ⟨heq.trans hflatten.symm, hcontent, writesFrom_cons.mpr ⟨hwrite, hrest⟩⟩
        · rw [hflatten] at hsize ⊢
          exact hwrites (writesFrom_cons.mp h).2 hsize

/-- The body arrives and is written without an error. -/
structure Streamed (env : Environment) (response : Response) : Prop where
  writes : WritesFrom env 0 response.chunks
  whole : response.broken = false
  flush : env.fails .flush = false
  fsync : env.fails .fsync = false
  closeStream : env.fails .closeStream = false

/-- What the `with` statement does to the temporary file. -/
def writeBody (env : Environment) (artifact : UpdateArtifact) (part : String) (response : Response) :
    Procedure World Raised Bytes :=
  Procedure.withCleanup (fill env artifact part response) (io env .closeStream)

theorem writeBody_run (env : Environment) (artifact : UpdateArtifact) (part : String) (response : Response) (w : World) :
    (∃ content, (writeBody env artifact part response (w.withFile part [])).2 = w.withFile part content ∧
      ∀ written, (writeBody env artifact part response (w.withFile part [])).1 = .ok written →
        written = response.chunks.flatten ∧ content = written ∧ Streamed env response) ∧
    (Streamed env response → (response.chunks.flatten.length : Int) ≤ artifact.size →
      (writeBody env artifact part response (w.withFile part [])).1 = .ok response.chunks.flatten) := by
  obtain ⟨⟨content, hworld, hwritten⟩, hwrites⟩ :=
    writeChunks_run env artifact part response.chunks 0 [] w
  unfold writeBody
  rw [withCleanup_io]
  unfold fill
  rw [run_bind]
  generalize writeChunks env artifact part 0 [] response.chunks (w.withFile part []) = outcome at *
  obtain ⟨r, t⟩ := outcome
  dsimp only at hworld hwritten hwrites
  cases r with
  | error e =>
    rw [Library.Procedure.next_error]
    refine ⟨⟨content, ?_, fun written h => ?_⟩, fun hstreamed hsize => ?_⟩
    · split <;> exact hworld
    · split at h <;> cases h
    · cases hwrites hstreamed.writes hsize
  | ok data =>
    obtain ⟨hdata, hcontent, hall⟩ := hwritten data rfl
    rw [Library.Procedure.next_ok]
    by_cases hbroken : response.broken = true
    · rw [if_pos hbroken]
      refine ⟨⟨content, ?_, fun written h => ?_⟩, fun hstreamed hsize => ?_⟩
      · split <;> exact hworld
      · split at h <;> cases h
      · rw [hstreamed.whole] at hbroken
        cases hbroken
    · rw [if_neg hbroken, io_bind, io_bind]
      by_cases hflush : env.fails .flush = true
      · rw [if_pos hflush]
        refine ⟨⟨content, ?_, fun written h => ?_⟩, fun hstreamed hsize => ?_⟩
        · split <;> exact hworld
        · split at h <;> cases h
        · rw [hstreamed.flush] at hflush
          cases hflush
      · by_cases hfsync : env.fails .fsync = true
        · rw [if_neg hflush, if_pos hfsync]
          refine ⟨⟨content, ?_, fun written h => ?_⟩, fun hstreamed hsize => ?_⟩
          · split <;> exact hworld
          · split at h <;> cases h
          · rw [hstreamed.fsync] at hfsync
            cases hfsync
        · rw [if_neg hflush, if_neg hfsync]
          refine ⟨⟨content, ?_, fun written h => ?_⟩, fun hstreamed hsize => ?_⟩
          · split <;> exact hworld
          · split at h
            next => cases h
            next hclose =>
              cases Except.ok.inj h
              rw [Bool.not_eq_true] at hbroken hflush hfsync hclose
              exact ⟨hdata, hcontent, hall, hbroken, hflush, hfsync, hclose⟩
          · rw [if_neg (by rw [hstreamed.closeStream]; exact Bool.false_ne_true), hdata]
            rfl

/-! ## Replacing the target -/

/-- The temporary file becomes the target. -/
structure Replaced (env : Environment) (artifact : UpdateArtifact) (response : Response)
    (files : String → Option Entry) : Prop where
  streamed : Streamed env response
  verified : Verified env artifact response.chunks.flatten
  chmod : env.fails .chmod = false
  replace : env.fails .replace = false
  target : files artifact.filename ≠ some .directory

theorem syncDirectory_run (env : Environment) (w : World) : (syncDirectory env w).2 = w := by
  unfold syncDirectory
  split
  · rw [io_bind]
    split
    · rfl
    · rw [withCleanup_io]
      split <;> exact io_run _ w
  · rfl

/-- The world when the target has been replaced. -/
def World.replaced (w : World) (artifact : UpdateArtifact) (part : String) (bytes : Bytes) : World :=
  { w with
    files := put (put w.files artifact.filename (some (.file bytes))) part none
    temporary := none }

theorem withFile_other {w : World} {part name : String} (bytes : Bytes) (h : name ≠ part) :
    (w.withFile part bytes).files name = w.files name := Function.update_of_ne h _ _

/-- The rename either fails or makes the temporary file the target. -/
theorem replaceTarget_run (env : Environment) {artifact : UpdateArtifact} {part : String} (hpart : part ≠ artifact.filename)
    (w : World) (content : Bytes) :
    (env.fails .replace = false ∧ w.files artifact.filename ≠ some .directory ∧
      replaceTarget env artifact part (w.withFile part content) =
        (.ok (), w.replaced artifact part content)) ∨
    (¬ (env.fails .replace = false ∧ w.files artifact.filename ≠ some .directory) ∧
      ∃ e, replaceTarget env artifact part (w.withFile part content) = (.error e, w.withFile part content)) := by
  unfold replaceTarget
  rw [io_bind]
  by_cases hreplace : env.fails .replace = true
  · rw [if_pos hreplace]
    refine Or.inr ⟨fun h => ?_, _, rfl⟩
    rw [h.1] at hreplace
    cases hreplace
  · rw [if_neg hreplace, run_bind_ok (Library.Procedure.run_read _)]
    have htarget : (w.withFile part content).files artifact.filename = w.files artifact.filename :=
      withFile_other content hpart.symm
    by_cases hdirectory : w.files artifact.filename = some .directory
    · rw [if_pos (htarget.trans hdirectory)]
      exact Or.inr ⟨fun h => h.2 hdirectory, _, rfl⟩
    · rw [if_neg (htarget ▸ hdirectory)]
      refine Or.inl ⟨Bool.not_eq_true _ ▸ hreplace, hdirectory, ?_⟩
      have hfiles : put (put (put w.files part (some (.file content))) artifact.filename
          (some (.file content))) part none = put (put w.files artifact.filename (some (.file content))) part none := by
        unfold put
        rw [Function.update_comm hpart, Function.update_idem]
      have hsource : (w.withFile part content).files part = some (.file content) :=
        Function.update_self _ _ _
      rw [Library.Procedure.run_modify, hsource]
      unfold World.replaced
      rw [← hfiles]
      rfl

/-- What the rest of the `try` statement does once there is a temporary file. -/
theorem store_run (env : Environment) {artifact : UpdateArtifact} {part : String} (hpart : part ≠ artifact.filename)
    (response : Response) (w : World) :
    (Replaced env artifact response w.files →
      (store env artifact part response (w.withFile part [])).2 =
        w.replaced artifact part response.chunks.flatten ∧
      ∀ name, (store env artifact part response (w.withFile part [])).1 = .ok name → name = artifact.filename) ∧
    (¬ Replaced env artifact response w.files →
      (∃ content, (store env artifact part response (w.withFile part [])).2 = w.withFile part content) ∧
      ∀ name, (store env artifact part response (w.withFile part [])).1 ≠ .ok name) := by
  obtain ⟨⟨content, hworld, hwritten⟩, hwrites⟩ := writeBody_run env artifact part response w
  unfold store
  rw [run_bind]
  unfold writeBody at hworld hwritten hwrites
  generalize Procedure.withCleanup (fill env artifact part response) (io env .closeStream)
    (w.withFile part []) = outcome at *
  obtain ⟨r, t⟩ := outcome
  dsimp only at hworld hwritten hwrites
  subst hworld
  cases r with
  | error e =>
    rw [Library.Procedure.next_error]
    refine ⟨fun h => ?_, fun _ => ⟨⟨content, rfl⟩, by intro name h; cases h⟩⟩
    cases hwrites h.streamed h.verified.1.le
  | ok data =>
    obtain ⟨hdata, hcontent, hstreamed⟩ := hwritten data rfl
    subst hdata
    subst hcontent
    rw [Library.Procedure.next_ok]
    by_cases hsize : (response.chunks.flatten.length : Int) = artifact.size
    · rw [if_neg (not_not.mpr hsize)]
      by_cases hdigest : env.sha256 response.chunks.flatten = artifact.sha256
      · rw [if_neg (not_not.mpr hdigest), io_bind]
        by_cases hchmod : env.fails .chmod = true
        · rw [if_pos hchmod]
          refine ⟨fun h => ?_, fun _ => ⟨⟨_, rfl⟩, by intro name h; cases h⟩⟩
          rw [h.chmod] at hchmod
          cases hchmod
        · rw [if_neg hchmod]
          rcases replaceTarget_run env hpart w response.chunks.flatten with
            ⟨hreplace, htarget, hrun⟩ | ⟨hfailed, e, hrun⟩
          · have hreplaced : Replaced env artifact response w.files :=
              ⟨hstreamed, ⟨hsize, hdigest⟩, Bool.not_eq_true _ ▸ hchmod, hreplace, htarget⟩
            refine ⟨fun _ => ?_, fun h => absurd hreplaced h⟩
            rw [run_bind_ok hrun, run_bind]
            have hsync := syncDirectory_run env (w.replaced artifact part response.chunks.flatten)
            generalize syncDirectory env (w.replaced artifact part response.chunks.flatten) = outcome at hsync
            obtain ⟨r, t⟩ := outcome
            dsimp only at hsync
            subst hsync
            cases r with
            | error e => exact ⟨rfl, by intro name h; cases h⟩
            | ok u =>
              refine ⟨rfl, fun name h => ?_⟩
              exact (Except.ok.inj h).symm
          · refine ⟨fun h => absurd ⟨h.replace, h.target⟩ hfailed, fun _ => ?_⟩
            rw [run_bind_error hrun]
            exact ⟨⟨_, rfl⟩, by intro name h; cases h⟩
      · rw [if_pos hdigest]
        exact ⟨fun h => absurd h.verified.2 hdigest, fun _ => ⟨⟨_, rfl⟩, by intro name h; cases h⟩⟩
    · rw [if_pos hsize]
      exact ⟨fun h => absurd h.verified.1 hsize, fun _ => ⟨⟨_, rfl⟩, by intro name h; cases h⟩⟩

/-! ## The `try` statement -/

/-- The response is one that is stored: a success, whose declared size, if any, is the one of the
manifest. -/
def Accepted (env : Environment) (artifact : UpdateArtifact) (response : Response) : Prop :=
  raiseForStatus response = .ok () ∧
    ∃ declared, contentLength env response = .ok declared ∧ (declared = 0 ∨ declared = artifact.size)

/-- The temporary file comes to exist. -/
structure Created (env : Environment) (artifact : UpdateArtifact) (response : Response)
    (files : String → Option Entry) : Prop where
  accepted : Accepted env artifact response
  create : env.fails .create = false
  fresh : files (partName env artifact) = none

theorem partName_ne (env : Environment) (artifact : UpdateArtifact) :
    partName env artifact ≠ artifact.filename := by
  intro h
  have hlength := congrArg String.length h
  unfold partName at hlength
  simp only [String.length_append] at hlength
  have hdot : ".".length = 1 := rfl
  omega

theorem createPart_run (env : Environment) (part : String) (w : World) :
    (env.fails .create = false ∧ w.files part = none ∧
      createPart env part w = (.ok (), { w.withFile part [] with temporary := some part })) ∨
    (¬ (env.fails .create = false ∧ w.files part = none) ∧ ∃ e, createPart env part w = (.error e, w)) := by
  unfold createPart
  rw [io_bind]
  by_cases hcreate : env.fails .create = true
  · rw [if_pos hcreate]
    refine Or.inr ⟨fun h => ?_, _, rfl⟩
    rw [h.1] at hcreate
    cases hcreate
  · rw [if_neg hcreate, run_bind_ok (Library.Procedure.run_read _)]
    by_cases hfresh : w.files part = none
    · rw [if_neg (not_not.mpr hfresh)]
      exact Or.inl ⟨Bool.not_eq_true _ ▸ hcreate, hfresh, rfl⟩
    · rw [if_pos hfresh]
      exact Or.inr ⟨fun h => hfresh h.2, _, rfl⟩

theorem stage_refused {artifact : UpdateArtifact} {response : Response}
    (h : ¬ Accepted env artifact response) (w : World) :
    ∃ e, stage env artifact response w = (.error e, w) := by
  unfold stage
  rw [run_bind, Library.Procedure.run_lift]
  cases hstatus : raiseForStatus response with
  | error e => exact ⟨e, rfl⟩
  | ok u =>
    rw [Library.Procedure.next_ok, run_bind, Library.Procedure.run_lift]
    cases hdeclared : contentLength env response with
    | error e => exact ⟨e, rfl⟩
    | ok declared =>
      rw [Library.Procedure.next_ok]
      by_cases hsize : declared ≠ 0 ∧ declared ≠ artifact.size
      · rw [if_pos hsize]
        exact ⟨_, rfl⟩
      · rw [not_and_or, not_not, not_not] at hsize
        exact absurd ⟨hstatus, declared, hdeclared, hsize⟩ h

/-- What the `try` statement leaves: nothing, the new target, or the temporary file. -/
theorem stage_run (env : Environment) (artifact : UpdateArtifact) (response : Response) {w : World} (hclean : w.temporary = none) :
    (¬ Created env artifact response w.files →
      (stage env artifact response w).2 = w ∧ ∀ name, (stage env artifact response w).1 ≠ .ok name) ∧
    (Created env artifact response w.files → Replaced env artifact response w.files →
      (stage env artifact response w).2 = w.withFile artifact.filename response.chunks.flatten ∧
      ∀ name, (stage env artifact response w).1 = .ok name → name = artifact.filename) ∧
    (Created env artifact response w.files → ¬ Replaced env artifact response w.files →
      (∃ content, (stage env artifact response w).2 =
        { w.withFile (partName env artifact) content with temporary := some (partName env artifact) }) ∧
      ∀ name, (stage env artifact response w).1 ≠ .ok name) := by
  by_cases haccepted : Accepted env artifact response
  · obtain ⟨hstatus, declared, hdeclared, hmatches⟩ := id haccepted
    have hstage : stage env artifact response w =
        (createPart env (partName env artifact) >>= fun _ =>
          store env artifact (partName env artifact) response) w := by
      unfold stage
      rw [run_bind, Library.Procedure.run_lift, hstatus, Library.Procedure.next_ok, run_bind,
        Library.Procedure.run_lift, hdeclared, Library.Procedure.next_ok, if_neg]
      rintro ⟨hzero, hsize⟩
      exact hmatches.elim hzero hsize
    rw [hstage]
    rcases createPart_run env (partName env artifact) w with ⟨hcreate, hfresh, hrun⟩ | ⟨hfailed, e, hrun⟩
    · have hcreated : Created env artifact response w.files := ⟨haccepted, hcreate, hfresh⟩
      obtain ⟨hreplaced, hleft⟩ := store_run env (partName_ne env artifact) response
        { w with temporary := some (partName env artifact) }
      rw [run_bind_ok hrun]
      refine ⟨fun h => absurd hcreated h, fun _ h => ?_, fun _ h => ?_⟩
      · obtain ⟨hworld, hname⟩ := hreplaced h
        refine ⟨hworld.trans ?_, hname⟩
        unfold World.replaced World.withFile put
        dsimp only
        rw [Function.update_comm (partName_ne env artifact).symm, ← hfresh, Function.update_eq_self, ← hclean]
      · exact hleft h
    · rw [run_bind_error hrun]
      refine ⟨fun _ => ⟨rfl, by intro name h; cases h⟩, fun h => ?_, fun h => ?_⟩
      · exact absurd ⟨h.create, h.fresh⟩ hfailed
      · exact absurd ⟨h.create, h.fresh⟩ hfailed
  · obtain ⟨e, hrun⟩ := stage_refused haccepted w
    rw [hrun]
    refine ⟨fun _ => ⟨rfl, by intro name h; cases h⟩, fun h => ?_, fun h => ?_⟩
    · exact absurd h.accepted haccepted
    · exact absurd h.accepted haccepted

/-! ## The `finally` statement -/

theorem cleanUp_clean {w : World} (h : w.temporary = none) (request : Nat) :
    (cleanUp env request w).2 = w := by
  unfold cleanUp
  rw [io_bind]
  split
  · rfl
  · rw [run_bind_ok (Library.Procedure.run_read w), h]
    rfl

/-- The temporary file is removed, unless closing the response or removing the file raises. -/
theorem cleanUp_part (env : Environment) {w : World} {part : String} (h : w.temporary = some part) (request : Nat) :
    ((env.fails (.close request) = true ∨ env.fails .unlink = true) ∧ (cleanUp env request w).2 = w) ∨
    (¬ (env.fails (.close request) = true ∨ env.fails .unlink = true) ∧
      (cleanUp env request w).2 = { w with files := put w.files part none }) := by
  unfold cleanUp
  rw [io_bind]
  by_cases hclose : env.fails (.close request) = true
  · rw [if_pos hclose]
    exact Or.inl ⟨Or.inl hclose, rfl⟩
  · rw [if_neg hclose, run_bind_ok (Library.Procedure.run_read w), h]
    dsimp only
    rw [io_bind]
    by_cases hunlink : env.fails .unlink = true
    · rw [if_pos hunlink]
      exact Or.inl ⟨Or.inr hunlink, rfl⟩
    · rw [if_neg hunlink]
      refine Or.inr ⟨fun h => h.elim hclose hunlink, ?_⟩
      rw [Library.Procedure.run_modify, h]

/-! ## The response that is read -/

/-- What a request leads to: the response with its number, or the destination of a redirect. -/
def visited (env : Environment) (final : Bool) (request : Nat) (url : Chars) :
    Option ((Response × Nat) ⊕ Chars) :=
  let response := env.respond request url
  if validateUpdateUrl env url ≠ .ok () ∨ env.fails (.send request) = true then none
  else if response.isRedirect = false then some (.inl (response, request))
  else if env.fails (.close request) = true ∨ response.location = "" ∨ final = true then none
  else
    match env.urljoin url response.location.toList with
    | .error _ => none
    | .ok destination => if validateUpdateUrl env destination = .ok () then some (.inr destination) else none

/-- Where the redirects of a URL lead: the last response and the number of its request. -/
def arrival (env : Environment) : Nat → Nat → Chars → Option (Response × Nat)
  | 0, _, _ => none
  | left + 1, request, url =>
    match visited env (left == 0) request url with
    | none => none
    | some (.inl response) => some response
    | some (.inr destination) => arrival env left (request + 1) destination

/-- A pass of the loop changes nothing but the log of the URLs. -/
theorem visit_run (env : Environment) (final : Bool) (url : Chars) (w : World) :
    (visit env final url w).1.toOption = visited env final w.contacted.length url ∧
      (visit env final url w).2.files = w.files ∧ (visit env final url w).2.temporary = w.temporary ∧
      ∀ outcome, (visit env final url w).1 = .ok outcome →
        (visit env final url w).2.contacted.length = w.contacted.length + 1 := by
  unfold visit visited
  rw [run_bind, Library.Procedure.run_lift]
  dsimp only
  cases hvalid : validateUpdateUrl env url with
  | error e =>
    rw [Library.Procedure.next_error, if_pos (Or.inl (by intro h; cases h))]
    exact ⟨rfl, rfl, rfl, by intro outcome h; cases h⟩
  | ok u =>
    rw [Library.Procedure.next_ok]
    by_cases hsend : env.fails (.send w.contacted.length) = true
    · have hrun : send env url w = (.error (.os (.send w.contacted.length)),
          { w with contacted := w.contacted ++ [url] }) := if_pos hsend
      rw [run_bind_error hrun, if_pos (Or.inr hsend)]
      exact ⟨rfl, rfl, rfl, by intro outcome h; cases h⟩
    · have hrun : send env url w = (.ok (env.respond w.contacted.length url, w.contacted.length),
          { w with contacted := w.contacted ++ [url] }) := if_neg hsend
      have hgo : ¬ ((.ok u : Except Raised Unit) ≠ .ok () ∨ env.fails (.send w.contacted.length) = true) := by
        rintro (h | h)
        · exact h rfl
        · exact hsend h
      have hcount : (w.contacted ++ [url]).length = w.contacted.length + 1 := List.length_append
      rw [run_bind_ok hrun, if_neg hgo]
      dsimp only
      by_cases hredirect : (env.respond w.contacted.length url).isRedirect = false
      · rw [if_pos hredirect, if_pos hredirect]
        exact ⟨rfl, rfl, rfl, fun _ _ => hcount⟩
      · rw [if_neg hredirect, if_neg hredirect, io_bind]
        by_cases hclose : env.fails (.close w.contacted.length) = true
        · rw [if_pos hclose, if_pos (Or.inl hclose)]
          exact ⟨rfl, rfl, rfl, by intro outcome h; cases h⟩
        · rw [if_neg hclose]
          by_cases hlocation : (env.respond w.contacted.length url).location = ""
          · rw [if_pos hlocation, if_pos (Or.inr (Or.inl hlocation))]
            exact ⟨rfl, rfl, rfl, by intro outcome h; cases h⟩
          · rw [if_neg hlocation]
            by_cases hfinal : final = true
            · rw [if_pos hfinal, if_pos (Or.inr (Or.inr hfinal))]
              exact ⟨rfl, rfl, rfl, by intro outcome h; cases h⟩
            · have hfollow : ¬ (env.fails (.close w.contacted.length) = true ∨
                  (env.respond w.contacted.length url).location = "" ∨ final = true) := by
                rintro (h | h | h)
                · exact hclose h
                · exact hlocation h
                · exact hfinal h
              rw [if_neg hfinal, if_neg hfollow, run_bind, Library.Procedure.run_lift]
              cases env.urljoin url (env.respond w.contacted.length url).location.toList with
              | error e => exact ⟨rfl, rfl, rfl, by intro outcome h; cases h⟩
              | ok destination =>
                rw [show (Except.ok destination : Except ValueError Chars).mapError Raised.value =
                  .ok destination from rfl, Library.Procedure.next_ok, run_bind, Library.Procedure.run_lift]
                dsimp only
                cases validateUpdateUrl env destination with
                | error e =>
                  rw [if_neg (by intro h; cases h)]
                  exact ⟨rfl, rfl, rfl, by intro outcome h; cases h⟩
                | ok u =>
                  rw [if_pos rfl]
                  exact ⟨rfl, rfl, rfl, fun _ _ => hcount⟩

/-- The loop of `_get` changes nothing but the log of the URLs. -/
theorem getFrom_run (env : Environment) (left : Nat) :
    ∀ (url : Chars) (w : World),
      (getFrom env left url w).1.toOption = arrival env left w.contacted.length url ∧
        (getFrom env left url w).2.files = w.files ∧ (getFrom env left url w).2.temporary = w.temporary := by
  induction left with
  | zero => exact fun url w => ⟨rfl, rfl, rfl⟩
  | succ left ih =>
    intro url w
    obtain ⟨hresult, hfiles, htemporary, hcount⟩ := visit_run env (left == 0) url w
    unfold getFrom arrival
    rw [run_bind, ← hresult]
    generalize visit env (left == 0) url w = outcome at *
    obtain ⟨r, t⟩ := outcome
    cases r with
    | error e => exact ⟨rfl, hfiles, htemporary⟩
    | ok found =>
      cases found with
      | inl response => exact ⟨rfl, hfiles, htemporary⟩
      | inr destination =>
        obtain ⟨hrest, hfiles', htemporary'⟩ := ih destination t
        rw [show t.contacted.length = w.contacted.length + 1 from hcount _ rfl] at hrest
        exact ⟨hrest, hfiles'.trans hfiles, htemporary'.trans htemporary⟩

/-! ## Nothing else is contacted -/

theorem modify_keeps {f : World → World} (h : ∀ w, (f w).contacted = w.contacted) :
    Keeps (ContactsSafely env) (Procedure.modify f : Procedure World Raised Unit) := by
  intro w url hurl
  exact Or.inl (h w ▸ hurl)

theorem writeChunks_keeps (artifact : UpdateArtifact) (part : String) (chunks : List Bytes) :
    ∀ i data, Keeps (ContactsSafely env) (writeChunks env artifact part i data chunks) := by
  induction chunks with
  | nil => exact fun i data => Library.Procedure.keeps_pure ContactsSafely.refl _
  | cons chunk chunks ih =>
    intro i data
    unfold writeChunks
    split
    · exact Library.Procedure.keeps_raise ContactsSafely.refl _
    · refine Keeps.bind ContactsSafely.trans (io_keeps ContactsSafely.refl _) fun _ => ?_
      exact Keeps.bind ContactsSafely.trans (modify_keeps fun _ => rfl) fun _ => ih _ _

theorem fill_keeps (artifact : UpdateArtifact) (part : String) (response : Response) :
    Keeps (ContactsSafely env) (fill env artifact part response) := by
  refine Keeps.bind ContactsSafely.trans (writeChunks_keeps _ _ _ _ _) fun data => ?_
  split
  · exact Library.Procedure.keeps_raise ContactsSafely.refl _
  · refine Keeps.bind ContactsSafely.trans (io_keeps ContactsSafely.refl _) fun _ => ?_
    refine Keeps.bind ContactsSafely.trans (io_keeps ContactsSafely.refl _) fun _ => ?_
    exact Library.Procedure.keeps_pure ContactsSafely.refl _

theorem replaceTarget_keeps (artifact : UpdateArtifact) (part : String) :
    Keeps (ContactsSafely env) (replaceTarget env artifact part) := by
  refine Keeps.bind ContactsSafely.trans (io_keeps ContactsSafely.refl _) fun _ => ?_
  refine Keeps.bind ContactsSafely.trans (Library.Procedure.keeps_read ContactsSafely.refl) fun w => ?_
  split
  · exact Library.Procedure.keeps_raise ContactsSafely.refl _
  · exact modify_keeps fun _ => rfl

theorem store_keeps (artifact : UpdateArtifact) (part : String) (response : Response) :
    Keeps (ContactsSafely env) (store env artifact part response) := by
  refine Keeps.bind ContactsSafely.trans
    (Keeps.withCleanup ContactsSafely.trans (fill_keeps _ _ _) (io_keeps ContactsSafely.refl _)) fun data => ?_
  split
  · exact Library.Procedure.keeps_raise ContactsSafely.refl _
  · split
    · exact Library.Procedure.keeps_raise ContactsSafely.refl _
    · refine Keeps.bind ContactsSafely.trans (io_keeps ContactsSafely.refl _) fun _ => ?_
      refine Keeps.bind ContactsSafely.trans (replaceTarget_keeps _ _) fun _ => ?_
      refine Keeps.bind ContactsSafely.trans ?_ fun _ => Library.Procedure.keeps_pure ContactsSafely.refl _
      intro w
      rw [syncDirectory_run]
      exact ContactsSafely.refl w

theorem createPart_keeps (part : String) : Keeps (ContactsSafely env) (createPart env part) := by
  refine Keeps.bind ContactsSafely.trans (io_keeps ContactsSafely.refl _) fun _ => ?_
  refine Keeps.bind ContactsSafely.trans (Library.Procedure.keeps_read ContactsSafely.refl) fun w => ?_
  split
  · exact Library.Procedure.keeps_raise ContactsSafely.refl _
  · exact modify_keeps fun _ => rfl

theorem stage_keeps (artifact : UpdateArtifact) (response : Response) :
    Keeps (ContactsSafely env) (stage env artifact response) := by
  refine Keeps.bind ContactsSafely.trans (Library.Procedure.keeps_lift ContactsSafely.refl _) fun _ => ?_
  refine Keeps.bind ContactsSafely.trans (Library.Procedure.keeps_lift ContactsSafely.refl _) fun declared => ?_
  split
  · exact Library.Procedure.keeps_raise ContactsSafely.refl _
  · exact Keeps.bind ContactsSafely.trans (createPart_keeps _) fun _ => store_keeps _ _ _

theorem cleanUp_keeps (request : Nat) : Keeps (ContactsSafely env) (cleanUp env request) := by
  refine Keeps.bind ContactsSafely.trans (io_keeps ContactsSafely.refl _) fun _ => ?_
  refine Keeps.bind ContactsSafely.trans (Library.Procedure.keeps_read ContactsSafely.refl) fun w => ?_
  split
  · exact Library.Procedure.keeps_pure ContactsSafely.refl _
  · exact Keeps.bind ContactsSafely.trans (io_keeps ContactsSafely.refl _) fun _ => modify_keeps fun _ => rfl

theorem download_keeps (update : AvailableUpdate) : Keeps (ContactsSafely env) (download env update) := by
  refine Keeps.bind ContactsSafely.trans (io_keeps ContactsSafely.refl _) fun _ => ?_
  refine Keeps.bind ContactsSafely.trans (Library.Procedure.keeps_read ContactsSafely.refl) fun w => ?_
  refine Keeps.bind ContactsSafely.trans (Library.Procedure.keeps_lift ContactsSafely.refl _) fun found => ?_
  split
  · exact Library.Procedure.keeps_pure ContactsSafely.refl _
  · refine Keeps.bind ContactsSafely.trans (modify_keeps fun _ => rfl) fun _ => ?_
    refine Keeps.bind ContactsSafely.trans (getFrom_keeps _ _) ?_
    rintro ⟨response, request⟩
    exact Keeps.withCleanup ContactsSafely.trans (stage_keeps _ _) (cleanUp_keeps _)

/-! ## The download as a whole -/

/-- What a download is to leave: the directory as it was, or with the verified bytes as the target, and
these when it returns. -/
structure DownloadSafe (env : Environment) (artifact : UpdateArtifact) (files : String → Option Entry)
    (outcome : Except Raised String × World) : Prop where
  returned : ∀ name, outcome.1 = .ok name → name = artifact.filename ∧
    ∃ bytes, outcome.2.files name = some (.file bytes) ∧ Verified env artifact bytes
  directory : outcome.2.files = files ∨
    ∃ bytes, Verified env artifact bytes ∧
      outcome.2.files = put files artifact.filename (some (.file bytes))

/-- The target is not there yet, the redirects lead to a response for which the temporary file is created,
the file does not become the target, and closing the response or removing the file raises. -/
def LeftBehind (env : Environment) (update : AvailableUpdate) (w : World) : Prop :=
  env.fails .mkdir = false ∧ alreadyThere env w.files update.artifact = .ok false ∧
    ∃ response request,
      arrival env (maxRedirects + 1) w.contacted.length update.artifact.url.toList = some (response, request) ∧
      Created env update.artifact response w.files ∧ ¬ Replaced env update.artifact response w.files ∧
      (env.fails (.close request) = true ∨ env.fails .unlink = true)

theorem alreadyThere_true {files : String → Option Entry} {artifact : UpdateArtifact}
    (h : alreadyThere env files artifact = .ok true) :
    ∃ bytes, files artifact.filename = some (.file bytes) ∧ Verified env artifact bytes := by
  unfold alreadyThere at h
  split at h
  next bytes hbytes =>
    split at h
    next => cases h
    next =>
      split at h
      next => cases h
      next =>
        split at h
        next => cases h
        next hsize =>
          split at h
          next => cases h
          next =>
            refine ⟨bytes, hbytes, not_not.mp hsize, ?_⟩
            exact beq_iff_eq.mp (Except.ok.inj h)
  next => cases h

theorem downloadSafe_error {artifact : UpdateArtifact} {files : String → Option Entry} {e : Raised} {w : World}
    (h : w.files = files) : DownloadSafe env artifact files (.error e, w) where
  returned name h := by cases h
  directory := Or.inl h

/-- What the cleanup adds to the outcome of the `try` statement. -/
theorem withCleanup_error {x : Procedure World Raised String} {w : World} (h : ∀ name, (x w).1 ≠ .ok name)
    (cleanup : Procedure World Raised Unit) :
    ∃ e, Procedure.withCleanup x cleanup w = (.error e, (cleanup (x w).2).2) := by
  unfold Procedure.withCleanup
  generalize cleanup (x w).2 = outcome
  obtain ⟨r, t⟩ := outcome
  cases r with
  | error e => exact ⟨e, rfl⟩
  | ok u =>
    cases hx : (x w).1 with
    | error e => exact ⟨e, rfl⟩
    | ok name => exact absurd hx (h name)

/-- The `try` statement with its `finally`. -/
theorem tryFinally_safe_iff (artifact : UpdateArtifact) (response : Response) (request : Nat) {w : World}
    (hclean : w.temporary = none) :
    DownloadSafe env artifact w.files
        (Procedure.withCleanup (stage env artifact response) (cleanUp env request) w) ↔
      ¬ (Created env artifact response w.files ∧ ¬ Replaced env artifact response w.files ∧
        (env.fails (.close request) = true ∨ env.fails .unlink = true)) := by
  obtain ⟨hnothing, htarget, hpart⟩ := stage_run env artifact response hclean
  by_cases hcreated : Created env artifact response w.files
  · by_cases hreplaced : Replaced env artifact response w.files
    · obtain ⟨hworld, hname⟩ := htarget hcreated hreplaced
      refine ⟨fun _ h => h.2.1 hreplaced, fun _ => ?_⟩
      have hkept : (cleanUp env request (stage env artifact response w).2).2 =
          w.withFile artifact.filename response.chunks.flatten := by
        have htemporary : (w.withFile artifact.filename response.chunks.flatten).temporary = none := hclean
        rw [hworld]
        exact cleanUp_clean htemporary request
      unfold Procedure.withCleanup
      generalize cleanUp env request (stage env artifact response w).2 = outcome at hkept
      obtain ⟨r, t⟩ := outcome
      dsimp only at hkept
      subst hkept
      have hdirectory : (w.withFile artifact.filename response.chunks.flatten).files = w.files ∨
          ∃ bytes, Verified env artifact bytes ∧ (w.withFile artifact.filename response.chunks.flatten).files =
            put w.files artifact.filename (some (.file bytes)) :=
        Or.inr ⟨_, hreplaced.verified, rfl⟩
      cases r with
      | error e => exact ⟨(by intro name h; cases h), hdirectory⟩
      | ok u =>
        refine ⟨fun name h => ?_, hdirectory⟩
        obtain rfl := hname name h
        exact ⟨rfl, _, Function.update_self _ _ _, hreplaced.verified⟩
    · obtain ⟨⟨content, hworld⟩, herror⟩ := hpart hcreated hreplaced
      obtain ⟨e, hrun⟩ := withCleanup_error herror (cleanUp env request)
      rw [hrun, hworld]
      have htemporary : ({ w.withFile (partName env artifact) content with
          temporary := some (partName env artifact) } : World).temporary = some (partName env artifact) := rfl
      rcases cleanUp_part env htemporary request with ⟨hfails, hleft⟩ | ⟨hworks, hremoved⟩
      · -- the file is still there, under a name that was free
        rw [hleft]
        refine ⟨fun hsafe => ?_, fun h => absurd ⟨hcreated, hreplaced, hfails⟩ h⟩
        have hthere : (put w.files (partName env artifact) (some (.file content))) (partName env artifact) =
            some (.file content) := Function.update_self _ _ _
        rcases hsafe.directory with hsame | ⟨bytes, _, hother⟩
        · have hfile := congrFun hsame (partName env artifact)
          rw [hcreated.fresh] at hfile
          exact absurd (hthere.symm.trans hfile) (by intro h; cases h)
        · have hfile := congrFun hother (partName env artifact)
          have hfree : (put w.files artifact.filename (some (.file bytes))) (partName env artifact) = none :=
            (Function.update_of_ne (partName_ne env artifact) _ _).trans hcreated.fresh
          rw [hfree] at hfile
          exact absurd (hthere.symm.trans hfile) (by intro h; cases h)
      · rw [hremoved]
        refine ⟨fun _ h => hworks h.2.2, fun _ => downloadSafe_error ?_⟩
        show put (put w.files (partName env artifact) (some (.file content))) (partName env artifact) none = w.files
        unfold put
        rw [Function.update_idem, ← hcreated.fresh, Function.update_eq_self]
  · obtain ⟨hworld, herror⟩ := hnothing hcreated
    obtain ⟨e, hrun⟩ := withCleanup_error herror (cleanUp env request)
    rw [hrun, hworld, cleanUp_clean hclean]
    exact ⟨fun _ h => hcreated h.1, fun _ => downloadSafe_error rfl⟩

theorem download_safe_iff (update : AvailableUpdate) (w : World) :
    DownloadSafe env update.artifact w.files (download env update w) ↔ ¬ LeftBehind env update w := by
  unfold download
  rw [io_bind]
  by_cases hmkdir : env.fails .mkdir = true
  · rw [if_pos hmkdir]
    refine ⟨fun _ h => ?_, fun _ => downloadSafe_error rfl⟩
    rw [h.1] at hmkdir
    cases hmkdir
  rw [if_neg hmkdir, run_bind_ok (Library.Procedure.run_read w), run_bind, Library.Procedure.run_lift]
  cases hthere : alreadyThere env w.files update.artifact with
  | error e =>
    rw [Library.Procedure.next_error]
    refine ⟨fun _ h => ?_, fun _ => downloadSafe_error rfl⟩
    rw [h.2.1] at hthere
    cases hthere
  | ok found =>
    rw [Library.Procedure.next_ok]
    cases found with
    | true =>
      obtain ⟨bytes, hfile, hverified⟩ := alreadyThere_true hthere
      refine ⟨fun _ h => ?_, fun _ => ⟨fun name h => ?_, Or.inl rfl⟩⟩
      · rw [h.2.1] at hthere
        cases hthere
      · cases Except.ok.inj h
        exact ⟨rfl, bytes, hfile, hverified⟩
    | false =>
      rw [if_neg Bool.false_ne_true, run_bind_ok (Library.Procedure.run_modify _ w), run_bind]
      obtain ⟨hresult, hfiles, htemporary⟩ := getFrom_run env (maxRedirects + 1)
        update.artifact.url.toList { w with temporary := none }
      unfold get
      generalize getFrom env (maxRedirects + 1) update.artifact.url.toList { w with temporary := none } =
        outcome at *
      obtain ⟨r, t⟩ := outcome
      dsimp only at hresult hfiles htemporary
      cases r with
      | error e =>
        rw [Library.Procedure.next_error]
        refine ⟨?_, fun _ => downloadSafe_error hfiles⟩
        rintro _ ⟨_, _, response, request, harrival, _⟩
        rw [← hresult] at harrival
        cases harrival
      | ok arrived =>
        obtain ⟨response, request⟩ := arrived
        rw [Library.Procedure.next_ok, ← hfiles]
        dsimp only
        rw [tryFinally_safe_iff update.artifact response request htemporary, not_iff_not]
        constructor
        · intro h
          exact ⟨Bool.not_eq_true _ ▸ hmkdir, hthere, response, request, hresult.symm, hfiles ▸ h⟩
        · rintro ⟨_, _, response', request', harrival, h⟩
          rw [← hresult] at harrival
          cases Option.some.inj harrival
          exact hfiles.symm ▸ h

/-- What holds of the update client against an environment. -/
structure UpdatesVerified (env : Environment) : Prop where
  offered : ∀ client w update, (check env client w).1 = .ok (some update) →
    ∃ signed signature, SignedRelease env client signed signature update
  stored : ∀ update w, DownloadSafe env update.artifact w.files (download env update w) ↔
    ¬ LeftBehind env update w
  contacted : (∀ client w, ContactsSafely env w (check env client w).2) ∧
    ∀ update w, ContactsSafely env w (download env update w).2

/-- **Signed downloads.** Whatever the network and the disk do: what is offered is signed and newer, every
URL that is contacted is HTTPS or loopback, and a download returns verified bytes or raises with the directory
as it was or with the verified target, exactly if it does not leave its temporary file behind. -/
theorem updates_verified (env : Environment) : UpdatesVerified env where
  offered _ _ _ := check_spec
  stored := download_safe_iff
  contacted := ⟨check_keeps, download_keeps⟩

/-- A server that sends one byte, on a machine where nothing fails but what is given. -/
def oneByte (fails : IoStep → Bool) (byte : UInt8) : Environment where
  respond _ _ := ⟨200, none, "", [[byte]], false⟩
  fails := fails
  random := "x"
  hasODirectory := true
  unicode := ⟨fun s => s.map Char.toLower, id, some, id⟩
  isIPv6 _ := false
  urljoin _ destination := .ok destination
  int _ := none
  sha256 bytes := if bytes = [1] then "one" else "other"
  loads _ := none
  dumps _ := []
  b64decode _ := none
  verify _ _ := false
  fromisoformat _ := none

/-- A release of that byte. -/
def oneByteRelease : AvailableUpdate :=
  ⟨"1.2.0", "2026-07-01T00:00:00Z", ⟨"linux-x86_64", "agent", "https://releases.example.test/agent", "one", 1⟩⟩

/-- The body does not have the hash of the manifest, and the connection cannot be closed properly. -/
theorem download_leaves_part :
    ¬ DownloadSafe (oneByte (· == .close 0) 2) oneByteRelease.artifact (fun _ => none)
      (download (oneByte (· == .close 0) 2) oneByteRelease ⟨fun _ => none, [], none⟩) := by
  intro hsafe
  have hpart : (download (oneByte (· == .close 0) 2) oneByteRelease ⟨fun _ => none, [], none⟩).2.files
      ".agent.x.part" = some (.file [2]) := by decide +kernel
  rcases hsafe.directory with hsame | ⟨bytes, _, hother⟩
  · rw [hsame] at hpart
    cases hpart
  · rw [hother] at hpart
    have hname : ".agent.x.part" ≠ oneByteRelease.artifact.filename := by decide
    rw [put, Function.update_of_ne hname] at hpart
    cases hpart

end Agent.UpdateClient

end Dayfinch
