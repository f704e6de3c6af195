import AuditGateway.Framework.Returning
import AuditGateway.Pipeline.MessageStore

/-!
# The positions of messages

The normalizers go through the request and then through the response, array by array, and number the messages that
they have found. Each message has the path of the value that it was made from, with the positions in the arrays on the
way as indices. All of this holds whatever the extractor of media does, and whatever is skipped.
-/

namespace AuditGateway.Pipeline

open AuditGateway.Framework AuditGateway.Python
open AuditGateway.Framework.Returning

/-! ## Where a message comes from -/

/-- The body and the path of the value that a message was made from. -/
def NormalizedMessage.origin (m : NormalizedMessage) : Direction × Str :=
  (m.direction, m.sourcePath)

/-- The origins that messages of a place can have, in the order in which they are looked at. -/
def Site.origins (site : Site) : List (Direction × Str) :=
  match site.reading with
  | .parts => (partsOf site.sourcePath site.itemType site.content).map fun part => (site.direction, part.2)
  | .text => [(site.direction, site.sourcePath)]

/-- Messages of a trace from some of the origins, in the order of these. -/
structure Found (job : TraceCapturedJob) (origins : List (Direction × Str)) (messages : List NormalizedMessage) :
    Prop where
  origins : List.Sublist (messages.map (·.origin)) origins
  traceId : ∀ m ∈ messages, m.traceId = job.traceId

namespace Found

variable {job : TraceCapturedJob} {origins origins' : List (Direction × Str)}
  {messages messages' : List NormalizedMessage}

theorem nil : Found job origins [] :=
  ⟨List.nil_sublist _, by simp⟩

theorem mono (h : Found job origins messages) (hsub : origins.Sublist origins') : Found job origins' messages :=
  ⟨h.origins.trans hsub, h.traceId⟩

theorem append (h : Found job origins messages) (h' : Found job origins' messages') :
    Found job (origins ++ origins') (messages ++ messages') := by
  refine ⟨?_, fun m hm => (List.mem_append.1 hm).elim (h.traceId m) (h'.traceId m)⟩
  rw [List.map_append]
  exact h.origins.append h'.origins

theorem flatten {α : Type} {l : List α} {results : List (List NormalizedMessage)} {f : α → List (Direction × Str)}
    (h : List.Forall₂ (fun a messages => Found job (f a) messages) l results) :
    Found job (l.flatMap f) results.flatten := by
  induction h with
  | nil => exact nil
  | cons ha _ ih =>
    rw [List.flatMap_cons, List.flatten_cons]
    exact ha.append ih

end Found

section Returning

variable {m : Type → Type} [Monad m] [MonadExceptOf PyError m] [Returning PyError m] (rt : Runtime)
  (job : TraceCapturedJob) (extractionContext : Option (Extractor m))

/-- A message that a part of a body has been made to. -/
structure MadeAt (direction : Direction) (sourcePath : Str) (x : NormalizedMessage) : Prop where
  origin : x.origin = (direction, sourcePath)
  traceId : x.traceId = job.traceId
  sequenceIndex : x.sequenceIndex = 0

variable {direction : Direction} {role sourcePath : Str}

variable {rt job} in
theorem message_madeAt {x : Draft} {made : NormalizedMessage}
    (h : message rt job direction 0 role sourcePath x = .ok made) : MadeAt job direction sourcePath made := by
  obtain ⟨-, rfl⟩ := (message_yields ..).eq_of_ok h
  exact ⟨rfl, rfl, rfl⟩

variable {rt job extractionContext}

theorem base64Message_madeAt {extract : Extractor m → m Bool} {modality : Modality} {made : NormalizedMessage}
    (h : MayReturn (base64Message rt job direction role sourcePath extractionContext extract modality) made) :
    MadeAt job direction sourcePath made := by
  unfold base64Message at h
  cases extractionContext with
  | none =>
    obtain ⟨extracted, -, h⟩ := bind_inv h
    exact message_madeAt (ofExcept_inv h)
  | some x =>
    obtain ⟨extracted, -, h⟩ := bind_inv h
    exact message_madeAt (ofExcept_inv h)

theorem madeAt_of_bind {x : m NormalizedMessage} (hx : ∀ made, MayReturn x made → MadeAt job direction sourcePath made)
    {result : Option NormalizedMessage} (h : MayReturn (do return some (← x)) result) :
    ∀ made ∈ result, MadeAt job direction sourcePath made := by
  obtain ⟨made, hmade, h⟩ := bind_inv h
  rw [pure_inv h]
  rintro _ ⟨⟩
  exact hx made hmade

theorem urlMediaMessage_madeAt {mediaUrl : Json} {modality : Modality} {result : Option NormalizedMessage}
    (h : MayReturn (urlMediaMessage rt job direction role sourcePath extractionContext mediaUrl modality) result) :
    ∀ made ∈ result, MadeAt job direction sourcePath made := by
  unfold urlMediaMessage at h
  have hmessage (x : Draft) (made : NormalizedMessage)
      (h : MayReturn (MonadExcept.ofExcept (message rt job direction 0 role sourcePath x) : m _) made) :
      MadeAt job direction sourcePath made := message_madeAt (ofExcept_inv h)
  cases mediaUrl with
  | str url =>
    dsimp only at h
    split at h
    · rw [pure_inv h]
      simp
    · split at h
      · exact madeAt_of_bind (fun _ => base64Message_madeAt) h
      · split at h
        · exact madeAt_of_bind (hmessage _) h
        · exact madeAt_of_bind (hmessage _) h
  | _ =>
    rw [pure_inv h]
    simp

theorem mediaMessage_madeAt {value : Json} {result : Option NormalizedMessage}
    (h : MayReturn (mediaMessage rt job direction role sourcePath extractionContext value) result) :
    ∀ made ∈ result, MadeAt job direction sourcePath made := by
  unfold mediaMessage at h
  cases value with
  | dict d =>
    obtain ⟨_, -, h⟩ := bind_inv h
    split at h
    · exact urlMediaMessage_madeAt h
    · exact madeAt_of_bind (fun _ => base64Message_madeAt) h
    · rw [pure_inv h]
      simp
  | _ =>
    rw [pure_inv h]
    simp

theorem partMessage_madeAt {itemType : ItemType} {value : Json} {result : Option NormalizedMessage}
    (h : MayReturn (partMessage rt job direction role sourcePath extractionContext itemType value) result) :
    ∀ made ∈ result, MadeAt job direction sourcePath made := by
  unfold partMessage at h
  obtain ⟨media, hmedia, h⟩ := bind_inv h
  cases media with
  | some media =>
    rw [pure_inv h]
    exact mediaMessage_madeAt hmedia
  | none =>
    obtain ⟨text, -, h⟩ := bind_inv h
    split at h
    · rw [pure_inv h]
      simp
    · exact madeAt_of_bind (fun _ h => message_madeAt (ofExcept_inv h)) h

theorem MadeAt.found {made : NormalizedMessage} (h : MadeAt job direction sourcePath made) :
    Found job [(direction, sourcePath)] [made] := by
  refine ⟨?_, by simpa using h.traceId⟩
  rw [List.map_singleton, h.origin]

theorem found_toList {result : Option NormalizedMessage} (h : ∀ made ∈ result, MadeAt job direction sourcePath made) :
    Found job [(direction, sourcePath)] result.toList := by
  cases result with
  | none => exact .nil
  | some made => exact (h made rfl).found

theorem siteMessages_text {site : Site} (htext : site.reading = .text) {messages : List NormalizedMessage}
    (h : MayReturn (siteMessages rt job extractionContext site) messages) :
    messages = [] ∨ ∃ made, messages = [made] ∧ MadeAt job site.direction site.sourcePath made := by
  unfold siteMessages at h
  obtain ⟨role, -, h⟩ := bind_inv h
  rw [htext] at h
  obtain ⟨text, -, h⟩ := bind_inv h
  split at h
  · exact .inl (pure_inv h)
  · obtain ⟨made, hmade, h⟩ := bind_inv h
    exact .inr ⟨made, pure_inv h, message_madeAt (ofExcept_inv hmade)⟩

theorem siteMessages_found [LawfulMonad m] {site : Site} {messages : List NormalizedMessage}
    (h : MayReturn (siteMessages rt job extractionContext site) messages) : Found job site.origins messages := by
  unfold Site.origins
  cases hreading : site.reading with
  | text =>
    obtain rfl | ⟨made, rfl, hmade⟩ := siteMessages_text hreading h
    · exact .nil
    · exact hmade.found
  | parts =>
    unfold siteMessages at h
    obtain ⟨role, -, h⟩ := bind_inv h
    rw [hreading] at h
    obtain ⟨results, hresults, h⟩ := bind_inv h
    rw [pure_inv h, List.filterMap_eq_flatMap_toList, List.flatMap_def, List.map_eq_flatMap]
    have hparts := (mapM_inv hresults).imp fun part result hresult => found_toList (partMessage_madeAt hresult)
    exact Found.flatten ((List.forall₂_map_right_iff (f := Option.toList)).2 hparts)

theorem sitesMessages_found [LawfulMonad m] {sites : List Site} {messages : List NormalizedMessage}
    (h : MayReturn (sitesMessages rt job extractionContext sites) messages) :
    Found job (sites.flatMap Site.origins) messages := by
  obtain ⟨results, hresults, h⟩ := bind_inv h
  rw [pure_inv h]
  exact Found.flatten ((mapM_inv hresults).imp fun site result => siteMessages_found)

theorem loopMessages_found [LawfulMonad m] {document : Dict} {key : String} {site : Dict → Nat → Option Site}
    {messages : List NormalizedMessage} (h : MayReturn (loopMessages rt job extractionContext document key site)
      messages) :
    Found job ((loopSites document key site).flatMap Site.origins) messages := by
  obtain ⟨values, hvalues, h⟩ := bind_inv h
  obtain ⟨-, rfl⟩ := (Json.iterate_yields _).eq_of_ok (ofExcept_inv hvalues)
  exact sitesMessages_found h

theorem normalizePrompt_found [LawfulMonad m] {request : Dict} {keys : List String} {messages : List NormalizedMessage}
    (h : MayReturn (normalizePrompt rt job extractionContext request keys) messages) :
    Found job ((keys.map (promptSite request)).flatMap Site.origins) messages ∧
      (messages = [] ∨ ∃ made, messages = [made] ∧ made.sequenceIndex = 0) := by
  induction keys with
  | nil =>
    rw [normalizePrompt] at h
    rw [pure_inv h]
    exact ⟨.nil, .inl rfl⟩
  | cons key keys ih =>
    rw [normalizePrompt] at h
    obtain ⟨found, hfound, h⟩ := bind_inv h
    rw [List.map_cons, List.flatMap_cons]
    split at h
    · rw [pure_inv h]
      refine ⟨(siteMessages_found hfound).mono (List.sublist_append_left _ _), ?_⟩
      obtain hnil | ⟨made, hmade, hat⟩ := siteMessages_text rfl hfound
      · exact .inl hnil
      · exact .inr ⟨made, hmade, hat.sequenceIndex⟩
    · obtain ⟨hrest, hone⟩ := ih h
      exact ⟨hrest.mono (List.sublist_append_right _ _), hone⟩

end Returning

/-! ## The origins of the messages of a trace -/

def requestSites (request : Dict) : Family → List Site
  | .openaiChat => loopSites request "messages" chatRequestSite
  | .openaiResponses => responsesRequestSites request
  | .claudeMessages => claudeSystemSite request :: loopSites request "messages" claudeRequestSite
  | .gemini => loopSites request "contents" geminiRequestSite
  | .generic => promptKeys.map (promptSite request)

def responseSites (response : Dict) : Family → List Site
  | .openaiChat => loopSites response "choices" chatResponseSite
  | .openaiResponses => responsesResponseSites response
  | .claudeMessages => [claudeResponseSite response]
  | .gemini => loopSites response "candidates" geminiResponseSite
  | .generic => []

/-- The origins that the messages of a trace can have: those in the request, and then those in the response. In each
of them the values of an array follow one another in the order of their positions. -/
def originsOf (request response : Dict) (family : Family) : List (Direction × Str) :=
  (requestSites request family).flatMap Site.origins ++ (responseSites response family).flatMap Site.origins

/-! ## Indices in paths -/

/-- The numbers between brackets in a path, with the one that is being read. -/
def indicesFrom : Option Nat → Str → List Nat
  | _, [] => []
  | none, c :: s => if c = 91 then indicesFrom (some 0) s else indicesFrom none s
  | some n, c :: s => if c = 93 then n :: indicesFrom none s else indicesFrom (some (10 * n + (c.val - 48))) s

/-- The indices in a path: `[3, 0]` in `request.messages[3].content[0]`. -/
def pathIndices (path : Str) : List Nat :=
  indicesFrom none path

/-- A piece of a path that has these indices, whatever follows it. -/
def HasIndices (path : Str) (indices : List Nat) : Prop :=
  ∀ rest, pathIndices (path ++ rest) = indices ++ pathIndices rest

namespace HasIndices

variable {path path' : Str} {indices indices' : List Nat}

theorem eq (h : HasIndices path indices) : pathIndices path = indices := by
  have hpath := h []
  rw [List.append_nil] at hpath
  rw [hpath]
  exact List.append_nil _

theorem append (h : HasIndices path indices) (h' : HasIndices path' indices') :
    HasIndices (path ++ path') (indices ++ indices') := by
  intro rest
  rw [List.append_assoc, h, h', List.append_assoc]

theorem plain (h : (91 : CodePoint) ∉ path) : HasIndices path [] := by
  intro rest
  induction path with
  | nil => rfl
  | cons c path ih =>
    have hc : ¬ c = 91 := fun hc => h (hc ▸ List.mem_cons_self)
    show indicesFrom none (c :: (path ++ rest)) = _
    rw [indicesFrom, if_neg hc]
    exact ih fun hmem => h (List.mem_cons_of_mem _ hmem)

end HasIndices

theorem indicesFrom_digits (chars : List Char) (hdigits : ∀ c ∈ chars.map CodePoint.ofChar, c.val ≤ 57) (n : Nat)
    (rest : Str) :
    indicesFrom (some n) (chars.map CodePoint.ofChar ++ 93 :: rest) =
      Nat.ofDigitChars 10 chars n :: pathIndices rest := by
  induction chars generalizing n with
  | nil => rfl
  | cons c chars ih =>
    have hbracket : ¬ CodePoint.ofChar c = 93 := by
      intro hc
      have hle := hdigits _ List.mem_cons_self
      rw [hc] at hle
      exact absurd hle (by decide)
    rw [List.map_cons, List.cons_append, indicesFrom, if_neg hbracket,
      ih fun c hc => hdigits c (List.mem_cons_of_mem _ hc), CodePoint.val_ofChar, Nat.ofDigitChars_cons]
    rfl

theorem hasIndices_bracketed (n : Nat) : HasIndices (91 :: Str.ofString (toString n) ++ [93]) [n] := by
  intro rest
  have hdigits : Str.ofString (toString n) = (Nat.toDigits 10 n).map CodePoint.ofChar := by
    rw [Nat.toString_eq_repr, Nat.repr_eq_ofList_toDigits, Str.ofString, String.toList_ofList]
  have hle : ∀ c ∈ (Nat.toDigits 10 n).map CodePoint.ofChar, c.val ≤ 57 :=
    fun c hc => (mem_ofString_toString (hdigits ▸ hc)).2
  rw [pathIndices, List.cons_append, List.cons_append, indicesFrom, if_pos rfl, hdigits, List.append_assoc,
    List.singleton_append, indicesFrom_digits _ hle, Nat.ofDigitChars_ten_toDigits]
  rfl

theorem hasIndices_indexedPath {path rest : String} (hpath : (91 : CodePoint) ∉ Str.ofString path)
    (hrest : (91 : CodePoint) ∉ Str.ofString rest) (index : Nat) :
    HasIndices (indexedPath path index rest) [index] := by
  have hsplit : indexedPath path index rest =
      Str.ofString path ++ (91 :: Str.ofString (toString index) ++ [93]) ++ Str.ofString rest := by
    simp only [indexedPath, Str.ofString_append, List.append_assoc, List.cons_append]
    rfl
  rw [hsplit]
  exact ((HasIndices.plain hpath).append (hasIndices_bracketed index)).append (HasIndices.plain hrest)

theorem hasIndices_partSourcePath {path : Str} {indices : List Nat} (h : HasIndices path indices) (itemType : ItemType)
    (index : Nat) : HasIndices (partSourcePath path itemType index) (indices ++ [index]) := by
  have hchild (child : String) (hplain : (91 : CodePoint) ∉ Str.ofString child) :
      HasIndices (path ++ Str.ofString (child ++ "[") ++ Str.ofString (toString index) ++ Str.ofString "]")
        (indices ++ [index]) := by
    have hsplit : path ++ Str.ofString (child ++ "[") ++ Str.ofString (toString index) ++ Str.ofString "]" =
        path ++ (Str.ofString child ++ (91 :: Str.ofString (toString index) ++ [93])) := by
      simp only [Str.ofString_append, List.append_assoc, List.cons_append]
      rfl
    rw [hsplit]
    exact h.append ((HasIndices.plain hplain).append (hasIndices_bracketed index))
  unfold partSourcePath
  split
  · exact hchild ".parts" (by decide)
  · exact hchild ".content" (by decide)

/-! ## The order of the origins -/

/-- Origins in one body, with increasing indices. -/
structure Ascending (direction : Direction) (origins : List (Direction × Str)) : Prop where
  direction : ∀ x ∈ origins, x.1 = direction
  indices : origins.Pairwise fun x y => pathIndices x.2 < pathIndices y.2

theorem zipIdx_increasing {α : Type} (l : List α) : l.zipIdx.Pairwise fun a b => a.2 < b.2 := by
  have h : (l.zipIdx.map Prod.snd).Pairwise (· < ·) := by
    rw [List.zipIdx_map_snd]
    exact List.pairwise_lt_range'
  exact List.pairwise_map.1 h

theorem append_lt_append {indices more more' : List Nat} (h : more < more') : indices ++ more < indices ++ more' := by
  induction indices with
  | nil => exact h
  | cons i indices ih => exact List.cons_lt_cons_iff.2 (.inr ⟨rfl, ih⟩)

variable {site : Site} {indices : List Nat}

theorem mem_origins {x : Direction × Str} (hx : x ∈ site.origins) (h : HasIndices site.sourcePath indices) :
    x.1 = site.direction ∧ ∃ more, pathIndices x.2 = indices ++ more := by
  unfold Site.origins at hx
  split at hx
  · obtain ⟨part, hpart, rfl⟩ := List.mem_map.1 hx
    unfold partsOf at hpart
    split at hpart
    · obtain ⟨⟨item, index⟩, -, rfl⟩ := List.mem_map.1 hpart
      exact ⟨rfl, [index], (hasIndices_partSourcePath h _ index).eq⟩
    · obtain rfl := List.mem_singleton.1 hpart
      exact ⟨rfl, [], by rw [h.eq, List.append_nil]⟩
  · obtain rfl := List.mem_singleton.1 hx
    exact ⟨rfl, [], by rw [h.eq, List.append_nil]⟩

theorem origins_ascending (h : HasIndices site.sourcePath indices) : Ascending site.direction site.origins := by
  refine ⟨fun x hx => (mem_origins hx h).1, ?_⟩
  unfold Site.origins
  split
  · unfold partsOf
    split
    · rw [List.map_map, List.pairwise_map]
      refine (zipIdx_increasing _).imp fun {a b} hab => ?_
      show pathIndices (partSourcePath site.sourcePath site.itemType a.2) <
        pathIndices (partSourcePath site.sourcePath site.itemType b.2)
      rw [(hasIndices_partSourcePath h _ a.2).eq, (hasIndices_partSourcePath h _ b.2).eq]
      exact append_lt_append (List.cons_lt_cons_iff.2 (.inl hab))
    · exact List.pairwise_singleton _ _
  · exact List.pairwise_singleton _ _

theorem origins_ascending_of_plain {direction : Direction} (hdirection : site.direction = direction)
    (h : (91 : CodePoint) ∉ site.sourcePath) : Ascending direction site.origins :=
  hdirection ▸ origins_ascending (HasIndices.plain h)

theorem indexed_ascending {α : Type} (values : List α) (f : α × Nat → Option Site) {direction : Direction}
    (hf : ∀ value index s, f (value, index) = some s → s.direction = direction ∧ HasIndices s.sourcePath [index]) :
    Ascending direction ((values.zipIdx.filterMap f).flatMap Site.origins) := by
  constructor
  · intro x hx
    obtain ⟨s, hs, hx⟩ := List.mem_flatMap.1 hx
    obtain ⟨⟨value, index⟩, -, hs⟩ := List.mem_filterMap.1 hs
    obtain ⟨hdirection, hindices⟩ := hf value index s hs
    exact (mem_origins hx hindices).1.trans hdirection
  · rw [List.pairwise_flatMap]
    constructor
    · intro s hs
      obtain ⟨⟨value, index⟩, -, hs⟩ := List.mem_filterMap.1 hs
      exact (origins_ascending (hf value index s hs).2).indices
    · rw [List.pairwise_filterMap]
      refine (zipIdx_increasing values).imp fun {a b} hab s hs t ht x hx y hy => ?_
      obtain ⟨more, hmore⟩ := (mem_origins hx (hf a.1 a.2 s hs).2).2
      obtain ⟨more', hmore'⟩ := (mem_origins hy (hf b.1 b.2 t ht).2).2
      rw [hmore, hmore']
      exact List.cons_lt_cons_iff.2 (.inl hab)

theorem loopSites_ascending {document : Dict} {key : String} {site : Dict → Nat → Option Site} {direction : Direction}
    (path rest : String) (hpath : (91 : CodePoint) ∉ Str.ofString path) (hrest : (91 : CodePoint) ∉ Str.ofString rest)
    (hsite : ∀ d index s, site d index = some s → s.direction = direction ∧
      s.sourcePath = indexedPath path index rest) :
    Ascending direction ((loopSites document key site).flatMap Site.origins) := by
  refine indexed_ascending _ _ fun value index s hs => ?_
  obtain ⟨d, -, hs⟩ := Option.bind_eq_some_iff.1 hs
  obtain ⟨hdirection, hsource⟩ := hsite d index s hs
  rw [hsource]
  exact ⟨hdirection, hasIndices_indexedPath hpath hrest index⟩

theorem requestSites_ascending (request : Dict) {family : Family} (hfamily : family ≠ .generic) :
    Ascending .request ((requestSites request family).flatMap Site.origins) := by
  cases family with
  | openaiChat =>
    refine loopSites_ascending "request.messages" "" (by decide) (by decide) fun d index s hs => ?_
    obtain rfl := Option.some.inj hs
    exact ⟨rfl, rfl⟩
  | openaiResponses =>
    show Ascending .request ((responsesRequestSites request).flatMap Site.origins)
    unfold responsesRequestSites
    split
    · rw [← List.filterMap_eq_map]
      refine indexed_ascending _ _ fun item index s hs => ?_
      obtain rfl := Option.some.inj hs
      exact ⟨rfl, hasIndices_indexedPath (by decide) (by decide) index⟩
    · rw [List.flatMap_singleton]
      refine origins_ascending_of_plain rfl ?_
      show (91 : CodePoint) ∉ Str.ofString "request.input"
      decide
  | claudeMessages =>
    have hloop : Ascending .request ((loopSites request "messages" claudeRequestSite).flatMap Site.origins) := by
      refine loopSites_ascending "request.messages" "" (by decide) (by decide) fun d index s hs => ?_
      obtain rfl := Option.some.inj hs
      exact ⟨rfl, rfl⟩
    refine ⟨List.forall_mem_cons.2 ⟨rfl, hloop.direction⟩, List.pairwise_cons.2 ⟨fun y hy => ?_, hloop.indices⟩⟩
    -- The system prompt is not in an array, and everything else is.
    obtain ⟨s, hs, hy⟩ := List.mem_flatMap.1 hy
    obtain ⟨d, index, hs⟩ := mem_loopSites hs
    obtain rfl := Option.some.inj hs
    obtain ⟨-, more, hmore⟩ := mem_origins hy (hasIndices_indexedPath (by decide) (by decide) index)
    rw [hmore]
    exact List.nil_lt_cons _ _
  | gemini =>
    refine loopSites_ascending "request.contents" "" (by decide) (by decide) fun d index s hs => ?_
    obtain rfl := Option.some.inj hs
    exact ⟨rfl, rfl⟩
  | generic => exact absurd rfl hfamily

theorem responseSites_ascending (response : Dict) (family : Family) :
    Ascending .response ((responseSites response family).flatMap Site.origins) := by
  cases family with
  | openaiChat =>
    refine loopSites_ascending "response.choices" ".message" (by decide) (by decide) fun d index s hs => ?_
    obtain ⟨message, -, rfl⟩ := Option.map_eq_some_iff.1 hs
    exact ⟨rfl, rfl⟩
  | openaiResponses =>
    show Ascending .response ((responsesResponseSites response).flatMap Site.origins)
    unfold responsesResponseSites
    split
    · rw [← List.filterMap_eq_map]
      refine indexed_ascending _ _ fun item index s hs => ?_
      obtain rfl := Option.some.inj hs
      exact ⟨rfl, hasIndices_indexedPath (by decide) (by decide) index⟩
    · exact ⟨by simp, .nil⟩
  | claudeMessages =>
    show Ascending .response ([claudeResponseSite response].flatMap Site.origins)
    rw [List.flatMap_singleton]
    refine origins_ascending_of_plain rfl ?_
    show (91 : CodePoint) ∉ Str.ofString "response.content"
    decide
  | gemini =>
    refine loopSites_ascending "response.candidates" ".content" (by decide) (by decide) fun d index s hs => ?_
    obtain ⟨content, -, rfl⟩ := Option.map_eq_some_iff.1 hs
    exact ⟨rfl, rfl⟩
  | generic => exact ⟨by simp [responseSites], .nil⟩

/-- A message from the one origin stands before a message from the other. -/
def Precedes (x y : Direction × Str) : Prop :=
  x.1 = .request ∧ y.1 = .response ∨ x.1 = y.1 ∧ pathIndices x.2 < pathIndices y.2

theorem originsOf_precedes (request response : Dict) {family : Family} (hfamily : family ≠ .generic) :
    (originsOf request response family).Pairwise Precedes := by
  have hrequest := requestSites_ascending request hfamily
  have hresponse := responseSites_ascending response family
  refine List.pairwise_append.2 ⟨?_, ?_, fun x hx y hy => ?_⟩
  · exact hrequest.indices.imp_of_mem fun {x y} hx hy hlt =>
      .inr ⟨(hrequest.direction x hx).trans (hrequest.direction y hy).symm, hlt⟩
  · exact hresponse.indices.imp_of_mem fun {x y} hx hy hlt =>
      .inr ⟨(hresponse.direction x hx).trans (hresponse.direction y hy).symm, hlt⟩
  · exact .inl ⟨hrequest.direction x hx, hresponse.direction y hy⟩

/-! ## Numbered messages -/

/-- The messages of a trace: from the origins in their order, and numbered. -/
structure Arranged (job : TraceCapturedJob) (request response : Dict) (messages : List NormalizedMessage) : Prop where
  found : Found job (originsOf request response job.family) messages
  precedes : (messages.map (·.origin)).Pairwise Precedes
  numbered : messages.map (·.sequenceIndex) = List.range messages.length

theorem withSequenceIndex_numbered (messages : List NormalizedMessage) :
    (withSequenceIndex messages).map (·.sequenceIndex) = List.range (withSequenceIndex messages).length := by
  rw [withSequenceIndex, List.map_map, List.length_map, List.length_zipIdx, List.range_eq_range',
    ← List.zipIdx_map_snd 0 messages]
  rfl

theorem withSequenceIndex_origins (messages : List NormalizedMessage) :
    (withSequenceIndex messages).map (·.origin) = messages.map (·.origin) := by
  nth_rewrite 2 [← List.zipIdx_map_fst 0 messages]
  rw [withSequenceIndex, List.map_map, List.map_map]
  rfl

variable {job : TraceCapturedJob} {request response : Dict} {messages : List NormalizedMessage}

theorem Found.arranged {family : Family} (hfamily : job.family = family) (hgeneric : family ≠ .generic)
    (h : Found job (originsOf request response family) messages) :
    Arranged job request response (withSequenceIndex messages) := by
  refine ⟨⟨?_, fun m hm => ?_⟩, ?_, withSequenceIndex_numbered messages⟩
  · rw [withSequenceIndex_origins, hfamily]
    exact h.origins
  · obtain ⟨⟨m', index⟩, hm', rfl⟩ := List.mem_map.1 hm
    exact h.traceId m' (List.fst_mem_of_mem_zipIdx hm')
  · rw [withSequenceIndex_origins]
    exact (originsOf_precedes request response hgeneric).sublist h.origins

section Returning

variable {m : Type → Type} [Monad m] [LawfulMonad m] [MonadExceptOf PyError m] [Returning PyError m] {rt : Runtime}
  {extractionContext : Option (Extractor m)}

theorem normalizeOpenaiChat_arranged (hfamily : job.family = .openaiChat)
    (h : MayReturn (normalizeOpenaiChat rt job extractionContext request response) messages) :
    Arranged job request response messages := by
  obtain ⟨requests, hrequests, h⟩ := bind_inv h
  obtain ⟨responses, hresponses, h⟩ := bind_inv h
  rw [pure_inv h]
  exact ((loopMessages_found hrequests).append (loopMessages_found hresponses)).arranged hfamily (by decide)

theorem normalizeOpenaiResponses_arranged (hfamily : job.family = .openaiResponses)
    (h : MayReturn (normalizeOpenaiResponses rt job extractionContext request response) messages) :
    Arranged job request response messages := by
  obtain ⟨requests, hrequests, h⟩ := bind_inv h
  obtain ⟨responses, hresponses, h⟩ := bind_inv h
  rw [pure_inv h]
  exact ((sitesMessages_found hrequests).append (sitesMessages_found hresponses)).arranged hfamily (by decide)

theorem normalizeClaudeMessages_arranged (hfamily : job.family = .claudeMessages)
    (h : MayReturn (normalizeClaudeMessages rt job extractionContext request response) messages) :
    Arranged job request response messages := by
  obtain ⟨system, hsystem, h⟩ := bind_inv h
  obtain ⟨requests, hrequests, h⟩ := bind_inv h
  obtain ⟨responses, hresponses, h⟩ := bind_inv h
  rw [pure_inv h]
  have hfound := ((sitesMessages_found hsystem).append (loopMessages_found hrequests)).append
    (sitesMessages_found hresponses)
  exact hfound.arranged hfamily (by decide)

theorem normalizeGemini_arranged (hfamily : job.family = .gemini)
    (h : MayReturn (normalizeGemini rt job extractionContext request response) messages) :
    Arranged job request response messages := by
  obtain ⟨requests, hrequests, h⟩ := bind_inv h
  obtain ⟨responses, hresponses, h⟩ := bind_inv h
  rw [pure_inv h]
  exact ((loopMessages_found hrequests).append (loopMessages_found hresponses)).arranged hfamily (by decide)

theorem normalizePrompt_arranged (hfamily : job.family = .generic)
    (h : MayReturn (normalizePrompt rt job extractionContext request promptKeys) messages) :
    Arranged job request response messages := by
  obtain ⟨hfound, hone⟩ := normalizePrompt_found h
  have horigins : Found job (originsOf request response job.family) messages := by
    rw [hfamily]
    exact hfound.mono (List.sublist_append_left _ _)
  obtain rfl | ⟨made, rfl, hindex⟩ := hone
  · exact ⟨horigins, .nil, rfl⟩
  · refine ⟨horigins, List.pairwise_singleton _ _, ?_⟩
    rw [List.map_singleton, hindex]
    rfl

theorem normalizeJsonTrace_arranged {requestBody responseBody : Str}
    (h : MayReturn (normalizeJsonTrace rt job extractionContext requestBody responseBody) messages) :
    Arranged job (bodyDict rt requestBody) (responseDict rt responseBody) messages := by
  obtain ⟨request, hrequest, h⟩ := bind_inv h
  obtain ⟨responseJson, hresponseJson, h⟩ := bind_inv h
  obtain ⟨events, hevents, h⟩ := bind_inv h
  obtain ⟨-, rfl⟩ := (loadJsonObject_yields rt requestBody).eq_of_ok (ofExcept_inv hrequest)
  obtain ⟨-, rfl⟩ := (loadJsonObject_yields rt responseBody).eq_of_ok (ofExcept_inv hresponseJson)
  obtain ⟨-, rfl⟩ := (loadSseJsonEvents_yields rt responseBody).eq_of_ok (ofExcept_inv hevents)
  dsimp only at h
  split at h
  · exact normalizeOpenaiChat_arranged ‹_› h
  · exact normalizeOpenaiResponses_arranged ‹_› h
  · exact normalizeClaudeMessages_arranged ‹_› h
  · exact normalizeGemini_arranged ‹_› h
  · exact normalizePrompt_arranged ‹_› h

end Returning

/-! ## Positions are keys -/

/-- `direction`, `sequence_index` and `source_path`. -/
def NormalizedMessage.position (m : NormalizedMessage) : Direction × Nat × Str :=
  (m.direction, m.sequenceIndex, m.sourcePath)

/-- The messages are numbered from 0, those of the request first, in each body in the order of the positions in its
arrays, and no two have the same position. -/
structure Positioned (messages : List NormalizedMessage) : Prop where
  numbered : messages.map (·.sequenceIndex) = List.range messages.length
  requestFirst : ∀ a ∈ messages, ∀ b ∈ messages, a.direction = .request → b.direction = .response →
    a.sequenceIndex < b.sequenceIndex
  inOrder : ∀ a ∈ messages, ∀ b ∈ messages, a.direction = b.direction →
    (a.sequenceIndex < b.sequenceIndex ↔ pathIndices a.sourcePath < pathIndices b.sourcePath)
  keys : (messages.map (·.position)).Nodup

theorem Precedes.asymm {x y : Direction × Str} (h : Precedes x y) (h' : Precedes y x) : False := by
  obtain ⟨hx, hy⟩ | ⟨hxy, hlt⟩ := h
  · obtain ⟨hy', -⟩ | ⟨hyx, -⟩ := h'
    · exact nomatch hy.symm.trans hy'
    · exact nomatch hx.symm.trans (hyx.symm.trans hy)
  · obtain ⟨hy, hx⟩ | ⟨-, hlt'⟩ := h'
    · exact nomatch hy.symm.trans (hxy.symm.trans hx)
    · exact lt_asymm hlt hlt'

namespace Arranged

theorem lt_iff (h : Arranged job request response messages) {a b : NormalizedMessage} (ha : a ∈ messages)
    (hb : b ∈ messages) : a.sequenceIndex < b.sequenceIndex ↔ Precedes a.origin b.origin := by
  have hpairs : messages.Pairwise fun a b => a.sequenceIndex < b.sequenceIndex ∧ Precedes a.origin b.origin := by
    refine List.pairwise_and_iff.2 ⟨?_, List.pairwise_map.1 h.precedes⟩
    have hnumbers : (messages.map (·.sequenceIndex)).Pairwise (· < ·) := by
      rw [h.numbered]
      exact List.pairwise_lt_range
    exact List.pairwise_map.1 hnumbers
  rw [List.pairwise_iff_getElem] at hpairs
  obtain ⟨i, hi, rfl⟩ := List.getElem_of_mem ha
  obtain ⟨j, hj, rfl⟩ := List.getElem_of_mem hb
  obtain hij | rfl | hji := lt_trichotomy i j
  · exact ⟨fun _ => (hpairs i j hi hj hij).2, fun _ => (hpairs i j hi hj hij).1⟩
  · exact ⟨fun hlt => absurd hlt (lt_irrefl _), fun hlt => (hlt.asymm hlt).elim⟩
  · have hba := hpairs j i hj hi hji
    exact ⟨fun hlt => absurd hlt hba.1.asymm, fun hlt => (hlt.asymm hba.2).elim⟩

theorem positioned (h : Arranged job request response messages) : Positioned messages := by
  refine ⟨h.numbered, fun a ha b hb hrequest hresponse => ?_, fun a ha b hb hdirection => ?_, ?_⟩
  · exact (h.lt_iff ha hb).2 (.inl ⟨hrequest, hresponse⟩)
  · rw [h.lt_iff ha hb]
    constructor
    · rintro (⟨hrequest, hresponse⟩ | ⟨-, hlt⟩)
      · exact nomatch hrequest.symm.trans (hdirection.trans hresponse)
      · exact hlt
    · exact fun hlt => .inr ⟨hdirection, hlt⟩
  · -- The numbers alone are different.
    have hnumbers : ((messages.map (·.position)).map fun x => x.2.1).Nodup := by
      rw [List.map_map]
      show (messages.map (·.sequenceIndex)).Nodup
      rw [h.numbered]
      exact List.nodup_range
    exact hnumbers.of_map _

end Arranged

/-! ## One row for each message -/

/-- Nothing has been saved of a trace. -/
def Tables.Fresh (T : Tables) (traceId : Str) : Prop :=
  ∀ place, T.traceMessages.find place ≠ none → place.traceId ≠ traceId

theorem rows_foldl_storeMessage {T : Tables} (hplaces : (messages.map (·.place)).Nodup)
    (hnew : ∀ m ∈ messages, T.traceMessages.find m.place = none) :
    (messages.foldl Tables.storeMessage T).traceMessages.rows =
      T.traceMessages.rows ++ messages.map fun m => (m.place, m.occurrence) := by
  induction messages generalizing T with
  | nil => simp
  | cons m messages ih =>
    obtain ⟨hm, hplaces⟩ := List.nodup_cons.1 hplaces
    have hrows : (T.storeMessage m).traceMessages.rows = T.traceMessages.rows ++ [(m.place, m.occurrence)] :=
      Keyed.rows_insertNew (hnew m List.mem_cons_self)
    have hnew' : ∀ m' ∈ messages, (T.storeMessage m).traceMessages.find m'.place = none := by
      intro m' hm'
      have hne : m'.place ≠ m.place := fun heq => hm (List.mem_map.2 ⟨m', hm', heq⟩)
      rw [find_place_storeMessage, if_neg fun h => hne h.1]
      exact hnew m' (List.mem_cons_of_mem _ hm')
    rw [List.foldl_cons, ih hplaces hnew', hrows, List.append_assoc]
    rfl

theorem Arranged.saved_rows (h : Arranged job request response messages) {rt : Runtime} {pg : Postgres} {now : Int}
    {T T' : Tables} {a : TraceAnalysis} (hfresh : T.Fresh job.traceId) (ha : a.messages = messages)
    (hsaved : saveTraceAnalysis rt pg now T a = .ok T') :
    T'.traceMessages.rows = T.traceMessages.rows ++ messages.map fun m => (m.place, m.occurrence) := by
  obtain ⟨-, rfl⟩ := (saveTraceAnalysis_yields rt pg now T a).eq_of_ok hsaved
  have hplaces : (messages.map (·.place)).Nodup := by
    have hpositions : ((messages.map (·.place)).map fun x => (x.direction, x.sequenceIndex, x.sourcePath)).Nodup := by
      rw [List.map_map]
      exact h.positioned.keys
    exact hpositions.of_map _
  have hnew : ∀ m ∈ messages, T.traceMessages.find m.place = none := by
    intro m hm
    by_contra hplace
    exact hfresh m.place hplace (h.found.traceId m hm)
  rw [saved_eq, ha]
  exact rows_foldl_storeMessage hplaces hnew

/-- `normalize_json_trace` returns the messages, in the core stage or with an extractor of media. -/
def Normalized (rt : Runtime) (job : TraceCapturedJob) (requestBody responseBody : Str)
    (messages : List NormalizedMessage) : Prop :=
  (normalizeJsonTrace rt job none requestBody responseBody : Except PyError _) = .ok messages ∨
    ∃ (σ : Type) (x : Extractor (Effectful PyError σ)) (s s' : σ),
      Effectful.outcome (normalizeJsonTrace rt job (some x) requestBody responseBody) s = (.ok messages, s')

theorem Normalized.arranged {rt : Runtime} {requestBody responseBody : Str}
    (h : Normalized rt job requestBody responseBody messages) :
    Arranged job (bodyDict rt requestBody) (responseDict rt responseBody) messages := by
  obtain h | ⟨σ, x, s, s', h⟩ := h
  · have hreturn : MayReturn (normalizeJsonTrace rt job none requestBody responseBody : Except PyError _) messages := h
    exact normalizeJsonTrace_arranged hreturn
  · have hreturn : MayReturn (normalizeJsonTrace rt job (some x) requestBody responseBody) messages := ⟨s, s', h⟩
    exact normalizeJsonTrace_arranged hreturn

/-- The messages that are returned are numbered from 0 with those of the request first, come from places of the bodies
in the order of the arrays, have positions that are keys, and get one row each when a new trace is saved. -/
theorem message_positions_are_keys (rt : Runtime) (job : TraceCapturedJob) (requestBody responseBody : Str)
    (messages : List NormalizedMessage) (h : Normalized rt job requestBody responseBody messages) :
    Positioned messages ∧
      List.Sublist (messages.map (·.origin))
        (originsOf (bodyDict rt requestBody) (responseDict rt responseBody) job.family) ∧
      ∀ (pg : Postgres) (now : Int) (T T' : Tables) (a : TraceAnalysis), T.Fresh job.traceId → a.messages = messages →
        saveTraceAnalysis rt pg now T a = .ok T' →
        T'.traceMessages.rows = T.traceMessages.rows ++ messages.map fun m => (m.place, m.occurrence) :=
  ⟨h.arranged.positioned, h.arranged.found.origins, fun _ _ _ _ _ hfresh ha hsaved =>
    h.arranged.saved_rows hfresh ha hsaved⟩

def partsBody : String :=
  "\x7b\"messages\":[\x7b\"role\":\"system\",\"content\":\"be kind\"\x7d,\x7b\"role\":\"user\",\"content\":" ++
    "[\x7b\"type\":\"text\",\"text\":\"hi\"\x7d,\x7b\"type\":\"text\",\"text\":\"there\"\x7d]\x7d]\x7d"

def partsRuntime : Runtime :=
  plainRuntime [(partsBody, .dict [("messages", .list
    [.dict [("role", .str "system"), ("content", .str "be kind")],
     .dict [("role", .str "user"), ("content", .list
       [.dict [("type", .str "text"), ("text", .str "hi")],
         .dict [("type", .str "text"), ("text", .str "there")]])]])])]

def partsJob : TraceCapturedJob where
  traceId := "trace_3"
  routePattern := "/v1/chat/completions"
  protocolFamily := "openai_chat"
  captureMode := "raw_and_normalized"
  username := "ada"

theorem message_positions_are_keys_parts :
    ∃ messages, Normalized partsRuntime partsJob partsBody [] messages ∧ messages.length = 3 ∧ Positioned messages := by
  have hruns : (match (normalizeJsonTrace partsRuntime partsJob none partsBody [] : Except PyError _) with
      | .ok messages => messages.length == 3
      | .error _ => false) = true := by decide +kernel
  split at hruns
  · rename_i messages hreturns
    exact ⟨messages, .inl hreturns, beq_iff_eq.1 hruns,
      (message_positions_are_keys partsRuntime partsJob partsBody [] messages (.inl hreturns)).1⟩
  · cases hruns

end AuditGateway.Pipeline
