import WorkTicket.Foundation.Base64
import WorkTicket.Foundation.Fallible

/-! The job images that are downloaded for the vision model, whatever the servers send: how large
they get, and which of them are left out. -/

namespace WorkTicket.Ai.VisionDownloads

open WorkTicket.Utf8 (Bytes)

/-! ## The code -/

abbrev Text := List Char

inductive Exc
  | valueError
  | other (name : String)
  deriving DecidableEq, Repr

/-- What a server sends: the exception of `raise_for_status`, the header, the chunks of the body, and
the exception that ends them, if one does. -/
structure Response where
  statusError : Option Exc
  contentLength : Option Text
  chunks : List Bytes
  streamError : Option Exc
  deriving DecidableEq, Repr

/-- What comes of one URL; `validate_url` refuses it, or the request fails. -/
inductive Fetch
  | refused (e : Exc)
  | failed (e : Exc)
  | answered (resp : Response)
  deriving DecidableEq, Repr

structure State where
  imagesB64 : List Bytes
  totalDownloaded : ℕ
  deriving DecidableEq, Repr

def start : State := ⟨[], 0⟩

def maxImageBytes : ℕ := 10 * 1024 * 1024

def maxTotalBytes : ℕ := 20 * 1024 * 1024

/-- The rest of the chunks, `none` when the limit is reached. -/
def readChunks (totalDownloaded : ℕ) (streamError : Option Exc) :
    List Bytes → ℕ → List Bytes → Except Exc (Option (List Bytes))
  | chunks, _, [] =>
    match streamError with
    | some e => .error e
    | none => .ok (some chunks)
  | chunks, size, chunk :: rest =>
    let newSize := size + chunk.length
    if maxImageBytes < newSize ∨ maxTotalBytes < totalDownloaded + newSize then .ok none
    else readChunks totalDownloaded streamError (chunks ++ [chunk]) newSize rest

variable (int : Text → Option ℤ)

/-- Whether a declared length is too large; `int` raises `ValueError` for what is no number. -/
def declaresTooLarge (contentLength : Option Text) : Except Exc Bool :=
  match contentLength with
  | none => .ok false
  | some text =>
    if text = [] then .ok false
    else
      match int text with
      | none => .error .valueError
      | some n => .ok (maxImageBytes < n)

/-- The body of a response, `none` when it is skipped. -/
def download (totalDownloaded : ℕ) (resp : Response) : Except Exc (Option Bytes) :=
  match resp.statusError with
  | some e => .error e
  | none => do
    if ← declaresTooLarge int resp.contentLength then .ok none
    else
      match ← readChunks totalDownloaded resp.streamError [] 0 resp.chunks with
      | none => .ok none
      | some chunks => .ok (if chunks = [] then none else some chunks.flatten)

attribute [grind =] readChunks download

def State.keep (s : State) (data : Bytes) : State where
  imagesB64 := s.imagesB64 ++ [Base64.encode Base64.standard data]
  totalDownloaded := s.totalDownloaded + data.length

/-- A turn of the loop over the URLs; every exception is logged, and nothing else. -/
def fetchImage (s : State) : Fetch → State
  | .refused _ => s
  | .failed _ => s
  | .answered resp =>
    match download int s.totalDownloaded resp with
    | .ok (some data) => s.keep data
    | .ok none => s
    | .error _ => s

/-- The images of the call of `_generate`, if `analyze_images` gets so far. -/
def analyzeImages (visionModel : Text) (imageUrls : List Fetch) : Option (List Bytes) :=
  if imageUrls = [] ∨ visionModel = [] then none
  else
    let imagesB64 := (imageUrls.foldl (fetchImage int) start).imagesB64
    if imagesB64 = [] then none else some imagesB64

/-! ## What is handed to the model -/

/-- What the server sends of the body if it is let. -/
def Response.size (resp : Response) : ℕ := resp.chunks.flatten.length

/-- The whole body of a response that does not fail. -/
def Response.Body (resp : Response) (data : Bytes) : Prop :=
  resp.statusError = none ∧ resp.streamError = none ∧ resp.chunks.flatten = data

/-- Why an image is left out; `total` is the size of the images kept before it. -/
inductive LeftOut (total : ℕ) : Fetch → Prop
  | refused (e : Exc) : LeftOut total (.refused e)
  | failed (e : Exc) : LeftOut total (.failed e)
  | status {resp : Response} {e : Exc} (h : resp.statusError = some e) :
    LeftOut total (.answered resp)
  | interrupted {resp : Response} {e : Exc} (h : resp.streamError = some e) :
    LeftOut total (.answered resp)
  | empty {resp : Response} (h : resp.chunks.flatten = []) : LeftOut total (.answered resp)
  | noNumber {resp : Response} {text : Text} (h : resp.contentLength = some text)
    (hint : int text = none) : LeftOut total (.answered resp)
  | declared {resp : Response} {text : Text} {n : ℤ} (h : resp.contentLength = some text)
    (hint : int text = some n) (hn : (maxImageBytes : ℤ) < n) : LeftOut total (.answered resp)
  | large {resp : Response} (h : maxImageBytes < resp.size) : LeftOut total (.answered resp)
  | full {resp : Response} (h : maxTotalBytes < total + resp.size) : LeftOut total (.answered resp)

/-- The size of the images that were kept, one entry for each URL. -/
def keptBytes (kept : List (Option Bytes)) : ℕ := (kept.reduceOption.map List.length).sum

/-- The images are whole bodies of the URLs, in the order of the list and within the bounds, and each
URL whose image is not among them has a reason. -/
structure Accounted (imageUrls : List Fetch) (images : List Bytes) (kept : List (Option Bytes)) :
    Prop where
  length_eq : kept.length = imageUrls.length
  images_eq : images.map (Base64.decode Base64.standard) = kept.reduceOption.map some
  whole : ∀ (i : ℕ) (data : Bytes), kept[i]? = some (some data) →
    ∃ resp, imageUrls[i]? = some (.answered resp) ∧ resp.Body data ∧ data.length ≤ maxImageBytes
  total_le : keptBytes kept ≤ maxTotalBytes
  leftOut : ∀ (i : ℕ) (fetch : Fetch), imageUrls[i]? = some fetch → kept[i]? = some none →
    LeftOut int (keptBytes (kept.take i)) fetch

structure Sound (visionModel : Text) (imageUrls : List Fetch) : Prop where
  handed : ∀ images, analyzeImages int visionModel imageUrls = some images →
    ∃ kept, Accounted int imageUrls images kept
  not_handed : analyzeImages int visionModel imageUrls = none →
    visionModel = [] ∨ ∃ kept, Accounted int imageUrls [] kept

variable {int} {total size : ℕ} {streamError : Option Exc} {chunks rest all : List Bytes}
  {resp : Response} {fetch : Fetch} {data : Bytes} {e : Exc}

/-! ## One image -/

theorem readChunks_error (h : readChunks total streamError chunks size rest = .error e) :
    streamError = some e := by
  induction rest generalizing chunks size with
  | nil =>
    cases streamError with
    | none => cases h
    | some e' =>
      cases h
      rfl
  | cons chunk rest ih =>
    simp only [readChunks] at h
    split at h
    · cases h
    · exact ih h

theorem readChunks_limit (h : readChunks total streamError chunks size rest = .ok none) :
    maxImageBytes < size + rest.flatten.length ∨
      maxTotalBytes < total + (size + rest.flatten.length) := by
  induction rest generalizing chunks size with
  | nil =>
    cases streamError with
    | none => cases h
    | some e => cases h
  | cons chunk rest ih =>
    rw [List.flatten_cons, List.length_append, ← add_assoc]
    simp only [readChunks] at h
    split at h
    case isTrue hlimit => exact hlimit.imp (by omega) (by omega)
    case isFalse => exact ih h

/-- A body that is read to its end is whole, and its last chunk was within the limits. -/
theorem readChunks_whole (hsize : chunks.flatten.length = size)
    (h : readChunks total streamError chunks size rest = .ok (some all)) :
    streamError = none ∧ all = chunks ++ rest ∧ (rest ≠ [] →
      all.flatten.length ≤ maxImageBytes ∧ total + all.flatten.length ≤ maxTotalBytes) := by
  induction rest generalizing chunks size with
  | nil =>
    cases streamError with
    | none =>
      cases h
      exact ⟨rfl, (List.append_nil _).symm, fun hne => absurd rfl hne⟩
    | some e => cases h
  | cons chunk rest ih =>
    simp only [readChunks] at h
    split at h
    case isTrue => cases h
    case isFalse hlimit =>
      have hlonger : (chunks ++ [chunk]).flatten.length = size + chunk.length := by
        rw [List.flatten_append, List.length_append, hsize, List.flatten_singleton]
      obtain ⟨hnone, hall, hwithin⟩ := ih hlonger h
      rw [List.append_assoc, List.singleton_append] at hall
      refine ⟨hnone, hall, fun _ => ?_⟩
      by_cases hrest : rest = []
      · rw [hrest, ← List.singleton_append, List.append_nil] at hall
        rw [hall, hlonger]
        omega
      · exact hwithin hrest

/-- A length that is declared at all is read, or is no number. -/
theorem declaresTooLarge_cases (int : Text → Option ℤ) (contentLength : Option Text) :
    declaresTooLarge int contentLength = .ok false ∨
      ∃ text, contentLength = some text ∧
        (int text = none ∧ declaresTooLarge int contentLength = .error .valueError ∨
          ∃ n, int text = some n ∧
            declaresTooLarge int contentLength = .ok (decide ((maxImageBytes : ℤ) < n))) := by
  cases contentLength with
  | none => exact .inl rfl
  | some text =>
    by_cases htext : text = []
    · exact .inl (if_pos htext)
    · rw [declaresTooLarge, if_neg htext]
      refine .inr ⟨text, rfl, ?_⟩
      cases hint : int text with
      | none => exact .inl ⟨rfl, rfl⟩
      | some n => exact .inr ⟨n, rfl, rfl⟩

theorem declaresTooLarge_error {contentLength : Option Text}
    (h : declaresTooLarge int contentLength = .error e) :
    ∃ text, contentLength = some text ∧ int text = none := by
  obtain hsmall | ⟨text, htext, ⟨hint, -⟩ | ⟨n, -, hlarge⟩⟩ :=
    declaresTooLarge_cases int contentLength
  · cases hsmall.symm.trans h
  · exact ⟨text, htext, hint⟩
  · cases hlarge.symm.trans h

theorem declaresTooLarge_true {contentLength : Option Text}
    (h : declaresTooLarge int contentLength = .ok true) :
    ∃ text n, contentLength = some text ∧ int text = some n ∧ (maxImageBytes : ℤ) < n := by
  obtain hsmall | ⟨text, htext, ⟨-, hraised⟩ | ⟨n, hint, hlarge⟩⟩ :=
    declaresTooLarge_cases int contentLength
  · cases hsmall.symm.trans h
  · cases hraised.symm.trans h
  · have hover := Except.ok.inj (hlarge.symm.trans h)
    exact ⟨text, n, htext, hint, of_decide_eq_true hover⟩

/-- What one turn keeps. -/
def outcome (int : Text → Option ℤ) (total : ℕ) : Fetch → Option Bytes
  | .refused _ => none
  | .failed _ => none
  | .answered resp =>
    match download int total resp with
    | .ok data => data
    | .error _ => none

attribute [grind =] outcome

theorem fetchImage_eq (s : State) (fetch : Fetch) :
    fetchImage int s fetch = (outcome int s.totalDownloaded fetch).elim s s.keep := by
  cases fetch with
  | refused e => rfl
  | failed e => rfl
  | answered resp =>
    simp only [fetchImage, outcome]
    cases download int s.totalDownloaded resp with
    | error e => rfl
    | ok data => cases data <;> rfl

theorem download_whole (h : download int total resp = .ok (some data)) :
    resp.Body data ∧ data.length ≤ maxImageBytes ∧ total + data.length ≤ maxTotalBytes := by
  unfold download at h
  split at h
  · cases h
  case h_2 hstatus =>
    obtain ⟨large, -, h⟩ := Fallible.bind_eq_ok.mp h
    cases large with
    | true => cases h
    | false =>
      obtain ⟨read, hread, h⟩ := Fallible.bind_eq_ok.mp h
      cases read with
      | none => cases h
      | some chunks =>
        by_cases hne : chunks = []
        · simp only [if_pos hne] at h
          cases h
        · simp only [if_neg hne] at h
          obtain ⟨hnone, rfl, hwithin⟩ := readChunks_whole rfl hread
          obtain rfl := Option.some.inj (Except.ok.inj h)
          exact ⟨⟨hstatus, hnone, rfl⟩, hwithin hne⟩

/-- A response whose image is not kept has a reason. -/
theorem download_leftOut (h : ∀ data, download int total resp ≠ .ok (some data)) :
    LeftOut int total (.answered resp) := by
  cases hstatus : resp.statusError with
  | some e => exact .status hstatus
  | none =>
    cases hlarge : declaresTooLarge int resp.contentLength with
    | error e =>
      obtain ⟨text, htext, hint⟩ := declaresTooLarge_error hlarge
      exact .noNumber htext hint
    | ok large =>
      cases large with
      | true =>
        obtain ⟨text, n, htext, hint, hn⟩ := declaresTooLarge_true hlarge
        exact .declared htext hint hn
      | false =>
        cases hread : readChunks total resp.streamError [] 0 resp.chunks with
        | error e => exact .interrupted (readChunks_error hread)
        | ok read =>
          cases read with
          | none =>
            have hlimit := readChunks_limit hread
            rw [zero_add] at hlimit
            exact hlimit.elim .large .full
          | some chunks =>
            obtain ⟨-, rfl, -⟩ := readChunks_whole rfl hread
            by_cases hne : resp.chunks = []
            · exact .empty (by rw [hne]; rfl)
            · refine absurd ?_ (h resp.chunks.flatten)
              simp only [download, hstatus, hlarge, Fallible.ok_bind, hread, List.nil_append,
                Bool.false_eq_true, if_false, if_neg hne]

theorem outcome_whole (h : outcome int total fetch = some data) :
    (∃ resp, fetch = .answered resp ∧ resp.Body data ∧ data.length ≤ maxImageBytes) ∧
      total + data.length ≤ maxTotalBytes := by
  cases fetch with
  | refused e => cases h
  | failed e => cases h
  | answered resp =>
    simp only [outcome] at h
    split at h
    case h_1 hload =>
      obtain ⟨hbody, hsmall, htotal⟩ := download_whole (hload.trans (congrArg _ h))
      exact ⟨⟨resp, rfl, hbody, hsmall⟩, htotal⟩
    case h_2 => cases h

theorem outcome_leftOut (h : outcome int total fetch = none) : LeftOut int total fetch := by
  cases fetch with
  | refused e => exact .refused e
  | failed e => exact .failed e
  | answered resp =>
    refine download_leftOut fun data hdata => ?_
    simp only [outcome, hdata] at h
    cases h

/-! ## All of them -/

def entryBytes (entry : Option Bytes) : ℕ := entry.elim 0 List.length

/-- What is kept of each URL, when `total` bytes were kept before. -/
def outcomes (int : Text → Option ℤ) : ℕ → List Fetch → List (Option Bytes)
  | _, [] => []
  | total, fetch :: imageUrls =>
    outcome int total fetch ::
      outcomes int (total + entryBytes (outcome int total fetch)) imageUrls

attribute [grind =] outcomes

theorem keptBytes_cons (entry : Option Bytes) (kept : List (Option Bytes)) :
    keptBytes (entry :: kept) = entryBytes entry + keptBytes kept := by
  cases entry <;> simp [keptBytes, entryBytes]

theorem foldl_fetchImage (imageUrls : List Fetch) (s : State) :
    imageUrls.foldl (fetchImage int) s =
      ⟨s.imagesB64 ++ (outcomes int s.totalDownloaded imageUrls).reduceOption.map
        (Base64.encode Base64.standard),
        s.totalDownloaded + keptBytes (outcomes int s.totalDownloaded imageUrls)⟩ := by
  induction imageUrls generalizing s with
  | nil => simp [outcomes, keptBytes]
  | cons fetch imageUrls ih =>
    rw [List.foldl_cons, fetchImage_eq, ih, outcomes, keptBytes_cons]
    cases outcome int s.totalDownloaded fetch with
    | none => simp [entryBytes]
    | some data => simp [State.keep, entryBytes, add_assoc]

theorem outcomes_length (imageUrls : List Fetch) (total : ℕ) :
    (outcomes int total imageUrls).length = imageUrls.length := by
  induction imageUrls generalizing total with
  | nil => rfl
  | cons fetch imageUrls ih => rw [outcomes, List.length_cons, ih, List.length_cons]

theorem getElem?_outcomes (imageUrls : List Fetch) (total i : ℕ) :
    (outcomes int total imageUrls)[i]? = imageUrls[i]?.map
      (outcome int (total + keptBytes ((outcomes int total imageUrls).take i))) := by
  induction imageUrls generalizing total i with
  | nil => rfl
  | cons fetch imageUrls ih =>
    cases i with
    | zero => rfl
    | succ i =>
      rw [outcomes, List.getElem?_cons_succ, ih, List.getElem?_cons_succ, List.take_succ_cons,
        keptBytes_cons, add_assoc]

theorem keptBytes_outcomes_le (imageUrls : List Fetch) {total : ℕ} (h : total ≤ maxTotalBytes) :
    total + keptBytes (outcomes int total imageUrls) ≤ maxTotalBytes := by
  induction imageUrls generalizing total with
  | nil => exact h
  | cons fetch imageUrls ih =>
    rw [outcomes, keptBytes_cons, ← add_assoc]
    refine ih ?_
    cases hout : outcome int total fetch with
    | none => exact h
    | some data => exact (outcome_whole hout).2

theorem accounted_outcomes (imageUrls : List Fetch) :
    Accounted int imageUrls (imageUrls.foldl (fetchImage int) start).imagesB64
      (outcomes int 0 imageUrls) where
  length_eq := outcomes_length imageUrls 0
  images_eq := by
    rw [foldl_fetchImage]
    simp only [start, List.nil_append, List.map_map]
    exact List.map_congr_left fun data _ => Base64.decode_encode data
  whole i data h := by
    rw [getElem?_outcomes] at h
    obtain ⟨fetch, hfetch, hout⟩ := Option.map_eq_some_iff.mp h
    obtain ⟨⟨resp, rfl, hbody, hsmall⟩, -⟩ := outcome_whole hout
    exact ⟨resp, hfetch, hbody, hsmall⟩
  total_le := by
    have hle : 0 + keptBytes (outcomes int 0 imageUrls) ≤ maxTotalBytes :=
      keptBytes_outcomes_le imageUrls (Nat.zero_le maxTotalBytes)
    rwa [zero_add] at hle
  leftOut i fetch hfetch h := by
    rw [getElem?_outcomes, hfetch, zero_add, Option.map_some] at h
    exact outcome_leftOut (Option.some.inj h)

theorem downloads_sound (visionModel : Text) (imageUrls : List Fetch) :
    Sound int visionModel imageUrls where
  handed images h := by
    have hall : Accounted int imageUrls _ _ := accounted_outcomes imageUrls
    simp only [analyzeImages] at h
    split_ifs at h
    obtain rfl := Option.some.inj h
    exact ⟨_, hall⟩
  not_handed h := by
    have hall : Accounted int imageUrls _ _ := accounted_outcomes imageUrls
    simp only [analyzeImages] at h
    split_ifs at h with hnothing himages
    · rcases hnothing with rfl | hmodel
      · exact .inr ⟨_, hall⟩
      · exact .inl hmodel
    · exact .inr ⟨_, himages ▸ hall⟩

end WorkTicket.Ai.VisionDownloads
