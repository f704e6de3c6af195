import AuditGateway.Gateway.UsageAgreement
import AuditGateway.Pipeline.Rules

/-!
# Effective tokens

The gateway records the usage of all providers under the same names, and `_effective_tokens` of `rules.py` subtracts
the cached tokens from the prompt tokens. OpenAI counts cached tokens as prompt tokens, so that this leaves the tokens
that were not read from a cache. Claude counts them apart: what is subtracted there was never included.
-/

namespace AuditGateway.Pipeline

open AuditGateway.Gateway (Response Format MinimalUsage CacheReport)

/-- A response comes as one document or as a stream. -/
inductive Delivery
  | buffered
  | streamed
deriving DecidableEq, Repr

/-- The usage that the gateway extracts. -/
def extractedUsage (r : Response) (format : Format) : Delivery → MinimalUsage
  | .buffered => (r.buffered format).1
  | .streamed => (r.streamed format).1

/-- The job with a usage. -/
def TraceCapturedJob.withUsage (job : TraceCapturedJob) (usage : MinimalUsage) : TraceCapturedJob :=
  { job with
    usagePromptTokens := usage.promptTokens
    usageCompletionTokens := usage.completionTokens
    usageTotalTokens := usage.totalTokens
    usageReasoningTokens := usage.reasoningTokens
    usageCachedTokens := usage.cachedTokens }

/-- The effective tokens of a response. -/
def effectiveOf (job : TraceCapturedJob) (r : Response) (format : Format) (delivery : Delivery) : Int :=
  effectiveTokens (job.withUsage (extractedUsage r format delivery))

/-- The input tokens that were not read from a cache, as the providers count: OpenAI's prompt tokens include the cached
ones, and Claude's input tokens include neither those read from the cache nor those written to it. -/
def uncachedInput (r : Response) : Format → Int
  | .claude _ => r.promptTokens.n + r.cacheCreationTokens.n
  | _ => r.promptTokens.n - r.cachedTokens.n

/-- OpenAI's prompt tokens include the cached tokens. -/
def CachedIncluded (r : Response) : Format → Prop
  | .claude _ => True
  | _ => r.cachedTokens.n ≤ r.promptTokens.n

/-- The cache counts of a response of Claude get into the usage. -/
def CacheRecorded (r : Response) (cache : CacheReport) (delivery : Delivery) : Prop :=
  delivery = .buffered ∨ 0 < r.promptTokens.n ∧ cache = .messageStart

theorem effectiveOf_claude (job : TraceCapturedJob) (r : Response) (cache : CacheReport) (delivery : Delivery) :
    ∃ cached : Int,
      effectiveOf job r (.claude cache) delivery = max (r.promptTokens.n - cached) 0 + r.completionTokens.n ∧
      (CacheRecorded r cache delivery → cached = Go.add r.cacheReadTokens.n r.cacheCreationTokens.n) ∧
      (¬ CacheRecorded r cache delivery → cached = 0) := by
  cases delivery with
  | buffered =>
    refine ⟨_, ?_, fun _ => rfl, fun h => absurd (.inl rfl) h⟩
    simp only [effectiveOf, extractedUsage, Response.buffered_claude]
    rfl
  | streamed =>
    refine ⟨(r.streamed (.claude cache)).1.cachedTokens, ?_, fun h => ?_, fun h => ?_⟩
    · simp only [effectiveOf, extractedUsage, Response.streamed_claude]
      rfl
    · obtain ⟨hprompt, rfl⟩ := h.resolve_left (by decide)
      simp [Response.streamed_claude, hprompt, Response.cacheIn]
    · rw [Response.streamed_claude]
      by_cases hprompt : 0 < r.promptTokens.n
      · have hcache : ¬ CacheReport.messageStart = cache := fun hcache => h (.inr ⟨hprompt, hcache.symm⟩)
        simp [hprompt, Response.cacheIn, hcache]
        rfl
      · simp [hprompt]

theorem add_cacheTokens (r : Response) :
    r.cacheReadTokens.n + r.cacheCreationTokens.n < 2 ^ 63 ∧
        Go.add r.cacheReadTokens.n r.cacheCreationTokens.n = r.cacheReadTokens.n + r.cacheCreationTokens.n ∨
      2 ^ 63 ≤ r.cacheReadTokens.n + r.cacheCreationTokens.n ∧
        Go.add r.cacheReadTokens.n r.cacheCreationTokens.n =
          r.cacheReadTokens.n + r.cacheCreationTokens.n - 2 ^ 64 := by
  have hread := r.cacheReadTokens.nonneg
  have hcreation := r.cacheCreationTokens.nonneg
  have hread' := r.cacheReadTokens.inRange.2
  have hcreation' := r.cacheCreationTokens.inRange.2
  unfold Go.add
  rw [Int.bmod_def]
  omega

/-- The conditions for the effective tokens of a response. For Claude nothing was written to a cache, and nothing was
read from one, or there is no other input, or the stream does not report it where the gateway looks. (The last case is
a sum of cache counts that wraps around to the negative of the tokens that were written.) -/
def CountedRight (r : Response) (delivery : Delivery) : Format → Prop
  | .claude cache =>
    r.cacheCreationTokens.n = 0 ∧
        (r.cacheReadTokens.n = 0 ∨ r.promptTokens.n = 0 ∨ ¬ CacheRecorded r cache delivery) ∨
      CacheRecorded r cache delivery ∧ r.cacheReadTokens.n + 2 * r.cacheCreationTokens.n = 2 ^ 64
  | _ =>
    delivery = .buffered ∨ 0 < r.totalTokens.n ∨ r.promptTokens.n = r.cachedTokens.n ∧ r.completionTokens.n = 0

/-- The conditions for a request of Claude to be counted with its own input: there is none, or nothing is subtracted. -/
def NotUndercounted (r : Response) (cache : CacheReport) (delivery : Delivery) : Prop :=
  r.promptTokens.n = 0 ∨ ¬ CacheRecorded r cache delivery ∨
    r.cacheReadTokens.n = 0 ∧ r.cacheCreationTokens.n = 0 ∨
    2 ^ 63 ≤ r.cacheReadTokens.n + r.cacheCreationTokens.n

theorem claude_counted_iff (job : TraceCapturedJob) (r : Response) (cache : CacheReport) (delivery : Delivery) :
    (effectiveOf job r (.claude cache) delivery = uncachedInput r (.claude cache) + r.completionTokens.n ↔
        CountedRight r delivery (.claude cache)) ∧
      (r.promptTokens.n + r.completionTokens.n ≤ effectiveOf job r (.claude cache) delivery ↔
        NotUndercounted r cache delivery) := by
  obtain ⟨cached, heffective, hrecorded, hlost⟩ := effectiveOf_claude job r cache delivery
  have hprompt := r.promptTokens.nonneg
  have hread := r.cacheReadTokens.nonneg
  have hcreation := r.cacheCreationTokens.nonneg
  have hread' := r.cacheReadTokens.inRange.2
  have hcreation' := r.cacheCreationTokens.inRange.2
  have hadd := add_cacheTokens r
  rw [heffective]
  simp only [uncachedInput, CountedRight, NotUndercounted]
  by_cases h : CacheRecorded r cache delivery
  · have hcached := hrecorded h
    simp only [h, not_true, or_false, true_and, false_or]
    omega
  · have hcached := hlost h
    simp only [h, not_false_eq_true, or_true, and_true, false_and, or_false, true_or, iff_true]
    omega

theorem openai_counted_iff (job : TraceCapturedJob) (r : Response) {format : Format} (delivery : Delivery)
    (hbuffered : (r.buffered format).1 = r.reported)
    (hstreamed : (r.streamed format).1 = ({} : MinimalUsage).supersede r.reported)
    (hincluded : r.cachedTokens.n ≤ r.promptTokens.n) :
    effectiveOf job r format delivery = r.promptTokens.n - r.cachedTokens.n + r.completionTokens.n ↔
      delivery = .buffered ∨ 0 < r.totalTokens.n ∨ r.promptTokens.n = r.cachedTokens.n ∧ r.completionTokens.n = 0 := by
  have hreported : effectiveTokens (job.withUsage r.reported) =
      r.promptTokens.n - r.cachedTokens.n + r.completionTokens.n := by
    show max (r.promptTokens.n - r.cachedTokens.n) 0 + r.completionTokens.n = _
    omega
  cases delivery with
  | buffered => simp [effectiveOf, extractedUsage, hbuffered, hreported]
  | streamed =>
    rw [effectiveOf, extractedUsage, hstreamed, MinimalUsage.supersede]
    by_cases htotal : 0 < r.totalTokens.n
    · have hkept : 0 < r.reported.totalTokens := htotal
      simp [hkept, hreported, htotal]
    · have hkept : ¬ 0 < r.reported.totalTokens := htotal
      have hempty : effectiveTokens (job.withUsage {}) = 0 := rfl
      have hcompletion := r.completionTokens.nonneg
      simp only [hkept, ↓reduceIte, hempty, reduceCtorEq, htotal, false_or]
      omega

/-- When the effective tokens of a response of OpenAI or Claude are the input that was not read from a cache and the
output, and when a response of Claude is counted with at least its own input and output. -/
theorem effective_tokens_iff (job : TraceCapturedJob) (r : Response) (format : Format) (delivery : Delivery)
    (hfamily : format ≠ .gemini) (hincluded : CachedIncluded r format) :
    (effectiveOf job r format delivery = uncachedInput r format + r.completionTokens.n ↔
        CountedRight r delivery format) ∧
      ∀ cache, format = .claude cache →
        (r.promptTokens.n + r.completionTokens.n ≤ effectiveOf job r format delivery ↔
          NotUndercounted r cache delivery) := by
  cases format with
  | chat =>
    refine ⟨openai_counted_iff job r delivery ?_ ?_ hincluded, fun _ h => nomatch h⟩
    · rw [Response.buffered_chat]
    · rw [Response.streamed_chat]
  | responses =>
    refine ⟨openai_counted_iff job r delivery ?_ ?_ hincluded, fun _ h => nomatch h⟩
    · rw [Response.buffered_responses]
    · rw [Response.streamed_responses]
  | gemini => exact absurd rfl hfamily
  | claude cache =>
    refine ⟨(claude_counted_iff job r cache delivery).1, ?_⟩
    rintro _ ⟨⟩
    exact (claude_counted_iff job r cache delivery).2

/-- A job whose usage is not filled in yet. -/
def unmeteredJob : TraceCapturedJob where
  traceId := "t"
  routePattern := "/v1/messages"
  protocolFamily := "claude_messages"
  captureMode := "raw"
  username := "u"

def readFromCache : Response :=
  { Response.cachedPrompt with
    promptTokens := ⟨100, by decide, by decide⟩
    totalTokens := ⟨105, by decide, by decide⟩
    cachedTokens := ⟨60, by decide, by decide⟩
    cacheReadTokens := ⟨900, by decide, by decide⟩ }

theorem effective_tokens_iff_chat : effectiveOf unmeteredJob readFromCache .chat .streamed = 45 := by
  have hincluded : CachedIncluded readFromCache .chat := show (60 : Int) ≤ 100 by decide
  exact (effective_tokens_iff unmeteredJob readFromCache .chat .streamed (by simp) hincluded).1.2
    (.inr (.inl (by decide)))

/-- Of 100 input tokens that were not read from a cache, none is left. -/
theorem claude_cached_undercounted :
    effectiveOf unmeteredJob readFromCache (.claude .messageStart) .buffered = 5 ∧
      effectiveOf unmeteredJob readFromCache (.claude .messageStart) .streamed = 5 ∧
      uncachedInput readFromCache (.claude .messageStart) + readFromCache.completionTokens.n = 105 := by
  decide

end AuditGateway.Pipeline
