import AiPipe.Protocol.Pushing
import Mathlib.Data.List.GetD

/-!
The gathers follow the protocol.  Whatever path a gather takes, it either holds a full set
of packets (or a degraded one), or its last pop found nothing.
-/

namespace AiPipe

open Concurrency List Env Move

variable {π : Type} {env : Env} {id node : Nat}

abbrev gatherStack (id node : Nat) (progress : Gathering π) : List (Frame π) :=
  [.task id node (.gathering progress)]

def Env.Gathered (env : Env) (id node : Nat) (result : Option (List (Taken π)))
    (left : List (Frame π)) : Prop :=
  ∃ progress, left = gatherStack id node progress ∧
    match result with
    | some taken => progress.held = taken ∧ env.Covers node progress
    | none => progress.dry = true

variable (port : Nat)

theorem silent_portEmpty : env.Silent (π := π) (portEmpty node port) :=
  silent_read _

theorem follows_shouldDrop (frame : Nat) (stack : List (Frame π))
    [free : env.protocol.Free stack] :
    env.Follows (env.shouldDrop node frame) stack fun drops left =>
      (drops = true → env.sync.isEnabled = true) ∧
        left = if drops then .asked node frame :: stack else stack := by
  unfold shouldDrop
  split
  next tracked =>
    rw [Bool.and_eq_true] at tracked
    have enabled : env.sync.isEnabled = true := by
      simp only [syncTracked, Bool.and_eq_true] at tracked
      exact tracked.1.1
    refine silent_external.andThen fun _ => ?_
    refine follows_access fun choice state answer state' made => ?_
    cases made
    by_cases drops : env.sync.shouldDrop state.syncEvents (env.graph.name node) frame = true
    · refine ⟨_, above stack (.gather (.ask tracked.1 drops)), fun _ => enabled, ?_⟩
      rw [if_pos drops]
      rfl
    · refine ⟨_, .idle, fun _ => enabled, ?_⟩
      rw [if_neg drops]
  · exact .ret ⟨by simp, rfl⟩

theorem silent_recordDequeue : env.Silent (π := π) env.recordDequeue := by
  unfold recordDequeue
  split
  · exact silent_count _
  · exact silent_ret ()

variable (progress : Gathering π)

theorem follows_gatherLatched :
    env.Follows (portEosLatched node port) (gatherStack id node progress) fun latched left =>
      left = gatherStack id node { progress with
        skipped := if latched then progress.skipped ++ [port] else progress.skipped } := by
  refine follows_read fun choice state => ?_
  by_cases latched : state.latched node port = true
  · refine ⟨_, advance (.gather (.skip latched)), ?_⟩
    rw [if_pos latched]
  · refine ⟨_, .idle, ?_⟩
    rw [if_neg latched]

theorem follows_gatherDrained :
    env.Follows (portDrained node port) (gatherStack id node progress) fun drained left =>
      ∃ skipped, left = gatherStack id node { progress with skipped } ∧
        progress.skipped ⊆ skipped ∧ (drained = true → port ∈ skipped) := by
  refine .seq (follows_gatherLatched port progress) fun latched => ?_
  cases latched with
  | true =>
    refine ((silent_portEmpty port).under _).mono fun empty left same => ?_
    exact ⟨_, same, by simp, by simp⟩
  | false => exact .ret ⟨_, rfl, by simp, by simp⟩

theorem follows_gatherPop {port : Nat} (declared : port < env.portCount node)
    (progress : Gathering π) (planned : env.Planned node port progress) :
    env.Follows (Env.tryPop (.gatherPop node port progress.held.length) node port)
      (gatherStack id node progress) fun taken left => match taken with
        | none => left = gatherStack id node { progress with dry := true }
        | some packet => packet.port = port ∧ left = .loose node packet progress.plan ::
            gatherStack id node { progress.unpeek port with dry := false } := by
  refine follows_tryPop (fun choice seen dry => ?_) fun choice seen data head => ?_
  · exact ⟨_, advance (.gather (.popDry planned dry)), rfl⟩
  · exact ⟨_, advance (.gather (.pop declared planned head)), rfl, rfl⟩

theorem follows_gatherPort {port : Nat} (declared : port < env.portCount node)
    (plain : ¬ env.Aligns node) (progress : Gathering π) :
    env.Follows (env.gatherPort node port progress.held.length) (gatherStack id node progress)
      fun answer left => match answer.packet with
        | some packet => packet.port = port ∧
            left = gatherStack id node ((progress.unpeek port).keep packet)
        | none => ∃ progress' : Gathering π, progress'.dry = true ∧
            left = gatherStack id node progress' := by
  refine .bind (follows_gatherPop declared progress fun aligns => absurd aligns plain)
    fun taken left same => ?_
  cases taken with
  | none =>
    subst same
    exact .ret ⟨_, rfl, rfl⟩
  | some packet =>
    obtain ⟨rfl, rfl⟩ := same
    refine .bind (follows_shouldDrop _ _) fun drops left asked => ?_
    obtain ⟨enabled, rfl⟩ := asked
    cases drops with
    | true =>
      refine follows_ghost (gatherStack id node _) (.condemn (enabled rfl)) ?_
      refine .seqFrame (gatherStack id node _)
        (follows_recordDrop (askedDiscard node _ packet.data)) fun _ => ?_
      have again := @Env.Keeps.gatherPort π env node packet.port id
        { progress.unpeek packet.port with dry := false } declared plain
      refine (Conforms.invoke again).mono fun answer left later => ?_
      have same : Gathering.unpeek { progress.unpeek packet.port with dry := false }
          packet.port = { progress.unpeek packet.port with dry := false } := by
        simp [Gathering.unpeek]
      rwa [same] at later
    | false =>
      refine silent_recordDequeue.andThen fun _ => ?_
      refine follows_ghost [] (.keep { progress.unpeek packet.port with dry := false }) ?_
      exact .ret ⟨rfl, rfl⟩

def Gathering.CoversTo (progress : Gathering π) (count : Nat) : Prop :=
  (progress.held.map Taken.port).Pairwise (· < ·) ∧
    (∀ port ∈ progress.held.map Taken.port, port < count) ∧
    ∀ port < count, port ∈ progress.skipped ∨ port ∈ progress.held.map Taken.port

variable {progress : Gathering π}

theorem Gathering.coversTo_zero (empty : progress.held = []) : progress.CoversTo 0 := by
  simp [CoversTo, empty]

theorem Gathering.CoversTo.skip {count : Nat} {skipped : List Nat}
    (covers : progress.CoversTo count) (more : progress.skipped ⊆ skipped)
    (skips : count ∈ skipped) : { progress with skipped }.CoversTo (count + 1) := by
  obtain ⟨sorted, bounded, full⟩ := covers
  refine ⟨sorted, fun port member => Nat.lt_succ_of_lt (bounded port member), ?_⟩
  intro port bound
  rcases Nat.lt_succ_iff_lt_or_eq.mp bound with earlier | rfl
  · exact (full port earlier).imp_left fun member => more member
  · exact .inl skips

theorem Gathering.CoversTo.more {count : Nat} {skipped : List Nat}
    (covers : progress.CoversTo count) (more : progress.skipped ⊆ skipped) :
    { progress with skipped }.CoversTo count :=
  ⟨covers.1, covers.2.1, fun port bound =>
    (covers.2.2 port bound).imp_left fun member => more member⟩

theorem Gathering.CoversTo.keep {packet : Taken π} (covers : progress.CoversTo packet.port) :
    (progress.keep packet).CoversTo (packet.port + 1) := by
  obtain ⟨sorted, bounded, full⟩ := covers
  simp only [CoversTo, Gathering.keep, map_append, map_cons, map_nil]
  refine ⟨?_, ?_, ?_⟩
  · rw [pairwise_append]
    refine ⟨sorted, pairwise_singleton _ _, ?_⟩
    simpa using bounded
  · intro port member
    rcases mem_append.mp member with earlier | last
    · exact Nat.lt_succ_of_lt (bounded port earlier)
    · rw [mem_singleton.mp last]
      exact Nat.lt_succ_self _
  · intro port bound
    rcases Nat.lt_succ_iff_lt_or_eq.mp bound with earlier | rfl
    · exact (full port earlier).imp_right (mem_append_left _)
    · exact .inr (mem_append_right _ (mem_singleton_self _))

/-- The loop of the plain gather: `first` ports are done and `count` are left. -/
theorem follows_gatherPorts {first count : Nat} (plain : ¬ env.Aligns node)
    (total : first + count = env.portCount node)
    (anyOpen : Bool) (progress : Gathering π) (covers : progress.CoversTo first)
    (closed : anyOpen = false → progress.held = [] ∧ env.portCount node ≠ 0) :
    env.Follows (Env.gatherPorts node (List.range' first count) anyOpen progress.held)
      (gatherStack id node progress) (env.Gathered id node) := by
  induction count generalizing first anyOpen progress with
  | zero =>
    cases anyOpen with
    | true =>
      refine .ret ⟨progress, rfl, rfl, .inr ⟨covers.1, fun port bound => ?_⟩⟩
      exact covers.2.2 port (by omega)
    | false =>
      obtain ⟨empty, declared⟩ := closed rfl
      have skipped : ∀ port < env.portCount node, port ∈ progress.skipped := by
        intro port bound
        simpa [empty] using covers.2.2 port (by omega)
      refine follows_ghost [] (.dryHands _ empty (.inr ⟨declared, skipped⟩)) ?_
      exact .ret ⟨_, rfl, rfl⟩
  | succ count ih =>
    rw [List.range'_succ]
    refine .bind (follows_gatherDrained first progress) fun drained left latched => ?_
    obtain ⟨skipped, rfl, more, skips⟩ := latched
    cases drained with
    | true =>
      have left : first + 1 + count = env.portCount node := by omega
      exact ih left anyOpen { progress with skipped } (covers.skip more (skips rfl)) closed
    | false =>
      refine .bind (.invoke (.gatherPort { progress with skipped } (by omega) plain))
        fun answer left popped => ?_
      cases answered : answer.packet with
      | none =>
        rw [answered] at popped
        obtain ⟨progress', dry, rfl⟩ := popped
        exact .ret ⟨progress', rfl, dry⟩
      | some packet =>
        rw [answered] at popped
        obtain ⟨rfl, rfl⟩ := popped
        have left : packet.port + 1 + count = env.portCount node := by omega
        exact ih left true (Gathering.keep
          (Gathering.unpeek { progress with skipped } packet.port) packet)
          (covers.more more).keep (by simp)

theorem follows_plainGather (plain : ¬ env.Aligns node) (progress : Gathering π)
    (empty : progress.held = []) :
    env.Follows (env.plainGather node) (gatherStack id node progress)
      (env.Gathered id node) := by
  have gathers : env.Follows (gatherPorts node (List.range' 0 (env.portCount node))
      (env.portCount node == 0) progress.held) (gatherStack id node progress)
      (env.Gathered id node) :=
    follows_gatherPorts plain (Nat.zero_add _) _ progress (Gathering.coversTo_zero empty)
      fun declared => ⟨empty, by simpa using declared⟩
  rwa [empty, ← range_eq_range'] at gathers

section Policies

theorem Env.aligned_subset {heads fewer : List (PortDataPtr π)} (some : fewer ⊆ heads)
    (all : env.framePolicy.aligned heads = true) : env.framePolicy.aligned fewer = true := by
  unfold framePolicy at all ⊢
  cases policy : env.config.alignmentPolicy <;> rw [policy] at all
  · exact FrameIdPolicy.aligned_subset some all
  · exact StreamFrameIdPolicy.aligned_subset some all
  · exact TimestampPolicy.aligned_subset some all

theorem Env.stale_ofPackets (heads : List (PortDataPtr π)) :
    OfPackets heads (env.framePolicy.stale heads) := by
  unfold framePolicy
  cases env.config.alignmentPolicy
  · exact FrameIdPolicy.stale_ofPackets heads
  · exact StreamFrameIdPolicy.stale_ofPackets heads
  · exact TimestampPolicy.stale_ofPackets _ heads

def Env.counts (env : Env) (head : PortData π) : Bool :=
  env.config.alignmentPolicy == .timestamp || head.hasFrameId

def FirstOldest (counts : PortData π → Bool) (packets : List (PortData π)) (best : PortData π) :
    Prop :=
  counts best = true ∧ ∃ before after, packets = before ++ best :: after ∧
    (∀ head ∈ before, counts head = true → best.timestamp < head.timestamp) ∧
    ∀ head ∈ after, counts head = true → best.timestamp ≤ head.timestamp

theorem FirstOldest.le {counts : PortData π → Bool} {packets : List (PortData π)}
    {best head : PortData π} (first : FirstOldest counts packets best) (member : head ∈ packets)
    (counted : counts head = true) : best.timestamp ≤ head.timestamp := by
  obtain ⟨-, before, after, rfl, earlier, later⟩ := first
  rcases mem_append.mp member with here | here
  · exact Int.le_of_lt (earlier head here counted)
  · rcases mem_cons.mp here with rfl | here
    · exact Int.le_refl _
    · exact later head here counted

theorem Env.degradeReference_spec (heads : List (Option (PortDataPtr π))) :
    match env.degradeReference heads with
    | none => ∀ head ∈ heads.filterMap fun head => head.join, env.counts head = false
    | some best => FirstOldest env.counts (heads.filterMap fun head => head.join) best := by
  unfold degradeReference
  have skips (head : PortData π) :
      (env.config.alignmentPolicy != .timestamp && !head.hasFrameId) = !env.counts head := by
    rw [counts, Bool.not_or]
    rfl
  simp only [skips]
  induction heads.filterMap fun head => head.join using reverseRecOn with
  | nil => exact forall_mem_nil _
  | append_singleton rest last ih =>
    rw [foldl_concat]
    generalize rest.foldl _ none = reference at ih ⊢
    cases counted : env.counts last with
    | false =>
      cases reference with
      | none =>
        intro head member
        rcases mem_append.mp member with earlier | here
        · exact ih head earlier
        · exact mem_singleton.mp here ▸ counted
      | some best =>
        obtain ⟨takes, before, after, rfl, earlier, later⟩ := ih
        refine ⟨takes, before, after ++ [last], by simp, earlier, fun head member known => ?_⟩
        rcases mem_append.mp member with here | here
        · exact later head here known
        · rw [mem_singleton.mp here, counted] at known
          cases known
    | true =>
      cases reference with
      | none =>
        refine ⟨counted, rest, [], rfl, fun head member known => ?_, forall_mem_nil _⟩
        rw [ih head member] at known
        cases known
      | some best =>
        by_cases older : last.timestamp < best.timestamp
        · simp only [Bool.not_true, Bool.false_eq_true, if_false, if_pos older]
          refine ⟨counted, rest, [], rfl, fun head member known => ?_, forall_mem_nil _⟩
          exact Int.lt_of_lt_of_le older (ih.le member known)
        · simp only [Bool.not_true, Bool.false_eq_true, if_false, if_neg older]
          obtain ⟨takes, before, after, rfl, earlier, later⟩ := ih
          refine ⟨takes, before, after ++ [last], by simp, earlier, fun head member known => ?_⟩
          rcases mem_append.mp member with here | here
          · exact later head here known
          · exact mem_singleton.mp here ▸ Int.not_lt.mp older

theorem Env.paired_aligned {heads : List (Option (PortDataPtr π))}
    {chosen : List (PortDataPtr π)} (among : ∀ data ∈ chosen, some data ∈ heads)
    (paired : ∀ data ∈ chosen,
      env.pairsWithReference (env.degradeReference heads) data = true) :
    env.framePolicy.aligned chosen = true := by
  have present (packet : PortData π) (member : some packet ∈ chosen) :
      packet ∈ heads.filterMap fun head => head.join :=
    mem_filterMap.mpr ⟨_, among _ member, rfl⟩
  have spec := env.degradeReference_spec heads
  simp only [pairsWithReference] at paired
  generalize env.degradeReference heads = reference at paired spec
  -- Every identified head has the reference to pair with.
  have pairs (packet : PortData π) (member : some packet ∈ chosen)
      (counts : env.config.alignmentPolicy = .timestamp ∨ packet.hasFrameId = true) :
      ∃ best, reference = some best ∧ (env.framePolicy (π := π)).pairsWith packet best = true := by
    cases reference with
    | none =>
      have unknown := spec packet (present packet member)
      rw [Env.counts, Bool.or_eq_false_iff, beq_eq_false_iff_ne] at unknown
      simp [unknown.1, unknown.2] at counts
    | some best => exact ⟨best, rfl, paired _ member⟩
  unfold framePolicy at pairs ⊢
  cases policy : env.config.alignmentPolicy with
  | frameId =>
    rw [policy] at pairs
    exact FrameIdPolicy.aligned_of_pairs reference fun packet member known =>
      pairs packet member (.inr known)
  | streamFrameId =>
    rw [policy] at pairs
    exact StreamFrameIdPolicy.aligned_of_pairs reference fun packet member known =>
      pairs packet member (.inr known)
  | timestamp =>
    rw [policy] at pairs
    refine TimestampPolicy.aligned_of_pairs fun packet member => ?_
    obtain ⟨best, rfl, close⟩ := pairs packet member (.inl rfl)
    refine ⟨best, fun other here => FirstOldest.le spec (present other here) ?_, close⟩
    rw [counts, policy]
    rfl

end Policies

section Aligned

variable {port : Nat}

theorem Gathering.unpeek_other (progress : Gathering π) {other : Nat} (different : other ≠ port) :
    (progress.unpeek port).peeked other = progress.peeked other :=
  Function.update_of_ne different _ _

theorem follows_dropStaleHead (progress : Gathering π) (joins : env.Matches progress)
    {head : Taken π} (peeked : progress.peeked port = some head) (reason : String) :
    env.Follows (env.dropStaleHead node port head.data reason) (gatherStack id node progress)
      fun _ left => left = gatherStack id node (progress.unpeek port) := by
  have popped : env.Follows (tryPop (.discardPop node port) node port)
      (gatherStack id node progress) fun taken left => left =
        .condemned (env.staleDiscard node (taken.map fun packet => ⟨node, port, packet.position⟩)
          head.data reason) :: gatherStack id node (progress.unpeek port) := by
    refine follows_tryPop (fun choice seen dry => ?_) fun choice seen data some => ?_
    · exact ⟨_, advance (.gather (.discardDry reason joins dry peeked)), rfl⟩
    · exact ⟨_, advance (.gather (.discard reason joins some peeked)), rfl⟩
  refine .seq popped fun taken => ?_
  refine .seqFrame (gatherStack id node (progress.unpeek port))
    (follows_recordDrop (env.staleDiscard node _ head.data reason)) fun _ => ?_
  exact (follows_tellStrategy (env.staleDiscard node _ head.data reason)).above _

theorem follows_peekAlignmentHead (progress : Gathering π) (joins : env.Matches progress)
    (several : 1 < env.portCount node) :
    env.Follows (env.peekAlignmentHead node port) (gatherStack id node progress)
      fun answer left => ∃ peeked, progress.Peeks port peeked answer.headPacket ∧
        left = gatherStack id node { progress with peeked } := by
  have peeks : env.Follows (tryPeek node port) (gatherStack id node progress)
      fun found left => found.elim (left = gatherStack id node progress)
        fun data => ∃ position, left = gatherStack id node (progress.peek ⟨port, position, data⟩) := by
    refine follows_access fun choice state answer state' made => ?_
    cases made
    cases offered : choice.offered (state.queue node port) with
    | none => exact ⟨_, .idle, rfl⟩
    | some data =>
      have found := Choice.head?_of_offered offered
      exact ⟨_, advance (.gather (.peek several found)), _, rfl⟩
  refine .bind peeks fun found left seen => ?_
  cases found with
  | none =>
    subst seen
    exact .ret ⟨progress.peeked, ⟨fun _ _ => rfl, by simp [Answer.headPacket]⟩, rfl⟩
  | some data =>
    obtain ⟨position, rfl⟩ := seen
    generalize taken : (⟨port, position, data⟩ : Taken π) = head
    have here : (progress.peek head).peeked port = some head := by
      subst taken
      simp [Gathering.peek]
    have elsewhere (other : Nat) (different : other ≠ port) :
        (progress.peek head).peeked other = progress.peeked other := by
      subst taken
      simp [Gathering.peek, different]
    have same : data = head.data := by rw [← taken]
    subst same
    refine .bind (follows_shouldDrop _ _) fun drops left asked => ?_
    obtain ⟨-, rfl⟩ := asked
    cases drops with
    | true =>
      have popped : env.Follows (tryPop (.discardPop node port) node port)
          (.asked node (frameIdOf head.data) :: gatherStack id node (progress.peek head))
          fun packet left => left = .condemned (askedDiscard node
            (packet.map fun packet => ⟨node, port, packet.position⟩) head.data) ::
            gatherStack id node ((progress.peek head).unpeek port) := by
        refine follows_tryPop (fun choice seen dry => ?_) fun choice seen data some => ?_
        · exact ⟨_, advance (.gather (.discardAskedDry joins dry here)), rfl⟩
        · exact ⟨_, advance (.gather (.discardAsked joins some here)), rfl⟩
      refine .seq popped fun packet => ?_
      refine .seqFrame (gatherStack id node ((progress.peek head).unpeek port))
        (follows_recordDrop (askedDiscard node _ head.data)) fun _ => ?_
      refine (Conforms.invoke (.peekHead ((progress.peek head).unpeek port) joins several)).mono
        fun answer left later => ?_
      obtain ⟨peeked, ⟨others, found⟩, rfl⟩ := later
      refine ⟨peeked, ⟨fun other different => ?_, found⟩, rfl⟩
      rw [others other different, Gathering.unpeek_other _ different, elsewhere other different]
    | false =>
      refine .ret ⟨_, ⟨elsewhere, ?_⟩, rfl⟩
      rintro data ⟨⟩
      exact ⟨head, here, by rw [← taken], rfl⟩

theorem follows_popAndDeliver (declared : port < env.portCount node) (progress : Gathering π)
    (planned : env.Planned node port progress) :
    env.Follows (env.popAndDeliver node port progress.held.length) (gatherStack id node progress)
      fun taken left => match taken with
        | none => left = gatherStack id node { progress with dry := true }
        | some packet => packet.port = port ∧
            left = gatherStack id node ((progress.unpeek port).keep packet) := by
  refine .bind (follows_gatherPop declared progress planned) fun taken left same => ?_
  cases taken with
  | none =>
    subst same
    exact .ret rfl
  | some packet =>
    obtain ⟨rfl, rfl⟩ := same
    refine silent_recordDequeue.andThen fun _ => ?_
    refine follows_ghost [] (.keep { progress.unpeek packet.port with dry := false }) ?_
    exact .ret ⟨rfl, rfl⟩

def Gathering.Knows (progress : Gathering π) (port : Nat) (data : PortDataPtr π) : Prop :=
  ∃ head : Taken π, progress.peeked port = some head ∧ head.port = port ∧ head.data = data

variable {progress : Gathering π}

theorem Gathering.Peeks.knows {peeked : Nat → Option (Taken π)}
    {found : Option (PortDataPtr π)} {other : Nat} {data : PortDataPtr π}
    (peeks : progress.Peeks port peeked found) (different : other ≠ port)
    (known : progress.Knows other data) : { progress with peeked }.Knows other data := by
  obtain ⟨head, before, facts⟩ := known
  exact ⟨head, (peeks.1 other different).trans before, facts⟩

def Gathering.Read (progress : Gathering π) (port : Nat) : Bool × PortDataPtr π → Prop
  | (true, data) => port ∈ progress.skipped ∧ data = none
  | (false, data) => progress.Knows port data

variable {entry : Bool × PortDataPtr π}

theorem Gathering.Read.closed
    (read : progress.Read port entry) (shut : entry.1 = true) : port ∈ progress.skipped := by
  obtain ⟨_ | _, data⟩ := entry
  · cases shut
  · exact read.1

theorem Gathering.Read.knows (read : progress.Read port entry) (isOpen : entry.1 = false) :
    progress.Knows port entry.2 := by
  obtain ⟨_ | _, data⟩ := entry
  · exact read
  · cases isOpen

/-- The ports that count as closed among the heads were seen latched, and the heads of the
others were peeked. -/
theorem follows_collectHeads {first count : Nat} (progress : Gathering π)
    (joins : env.Matches progress) (several : 1 < env.portCount node)
    (heads : List (Bool × PortDataPtr π)) (counted : heads.length = first)
    (known : ∀ port entry, heads[port]? = some entry → progress.Read port entry) :
    env.Follows (Env.collectHeads node (List.range' first count) heads)
      (gatherStack id node progress) fun result left => ∃ skipped peeked,
        left = gatherStack id node { progress with skipped, peeked } ∧
        ∀ heads', result = some heads' → heads'.length = first + count ∧
          ∀ port entry, heads'[port]? = some entry →
            { progress with skipped, peeked }.Read port entry := by
  induction count generalizing first progress heads with
  | zero =>
    refine .ret ⟨progress.skipped, progress.peeked, rfl, ?_⟩
    rintro heads' ⟨⟩
    exact ⟨counted, known⟩
  | succ count ih =>
    rw [List.range'_succ]
    -- A head is appended at position `first`; the earlier ones keep their positions.
    have grown (later : Gathering π) (entry : Bool × PortDataPtr π)
        (kept : ∀ port earlier, port < first → progress.Read port earlier →
          later.Read port earlier) (new : later.Read first entry) :
        ∀ port found, (heads ++ [entry])[port]? = some found → later.Read port found := by
      intro port found here
      rw [List.getElem?_append] at here
      split at here
      next bound => exact kept port found (by omega) (known port found here)
      next bound =>
        obtain ⟨last, same⟩ := List.getElem?_eq_some_iff.mp here
        rw [List.length_singleton] at last
        obtain rfl : port = first := by omega
        simp only [counted, Nat.sub_self, List.getElem_cons_zero] at same
        exact same ▸ new
    have longer (entry : Bool × PortDataPtr π) : (heads ++ [entry]).length = first + 1 := by
      simp [counted]
    have total : first + 1 + count = first + (count + 1) := by omega
    refine .bind (follows_gatherDrained first progress) fun drained left latched => ?_
    obtain ⟨skipped, rfl, more, skips⟩ := latched
    have wider (port : Nat) (entry : Bool × PortDataPtr π) (read : progress.Read port entry) :
        { progress with skipped }.Read port entry := by
      obtain ⟨_ | _, data⟩ := entry
      · exact read
      · exact ⟨more read.1, read.2⟩
    cases drained with
    | true =>
      have continued := ih { progress with skipped } joins (heads ++ [(true, none)])
        (longer _) (grown _ _ (fun port entry _ => wider port entry) ⟨skips rfl, rfl⟩)
      rwa [total] at continued
    | false =>
      refine .bind (.invoke (.peekHead { progress with skipped } joins several))
        fun answer left seen => ?_
      obtain ⟨peeked, peeks, rfl⟩ := seen
      cases found : answer.headPacket with
      | none => exact .ret ⟨skipped, peeked, rfl, by simp⟩
      | some head =>
        have kept (port : Nat) (entry : Bool × PortDataPtr π) (earlier : port < first)
            (read : progress.Read port entry) :
            { progress with skipped, peeked }.Read port entry := by
          have read := wider port entry read
          obtain ⟨_ | _, data⟩ := entry
          · exact peeks.knows (Nat.ne_of_lt earlier) read
          · exact read
        have continued := ih { progress with skipped, peeked } joins
          (heads ++ [(false, head)]) (longer _) (grown _ _ kept (peeks.2 head found))
        rwa [total] at continued

theorem follows_popAligned (ports : List Nat) (declared : ∀ port ∈ ports, port < env.portCount node)
    (distinct : ports.Nodup) (progress : Gathering π) (taken : List (Taken π))
    (holding : progress.held = taken)
    (planned : ∀ port ∈ ports, ∃ head ∈ progress.plan, progress.peeked port = some head) :
    env.Follows (env.popAligned node ports taken) (gatherStack id node progress)
      fun answer left => ∃ progress', left = gatherStack id node progress' ∧
        progress'.held = answer.inputs.2 ∧ progress'.degraded = progress.degraded ∧
        progress'.skipped = progress.skipped ∧
        if answer.inputs.1 then
          progress'.held.map Taken.port = taken.map Taken.port ++ ports
        else progress'.dry = true := by
  subst holding
  induction ports generalizing progress with
  | nil => exact .ret ⟨progress, rfl, rfl, rfl, rfl, by simp [Answer.inputs]⟩
  | cons port rest ih =>
    rw [nodup_cons] at distinct
    refine .bind (follows_popAndDeliver (declared port (by simp)) progress
      fun _ => planned port (by simp)) fun taken left popped => ?_
    cases taken with
    | none =>
      subst popped
      exact .ret ⟨_, rfl, rfl, rfl, rfl, by simp [Answer.inputs]⟩
    | some packet =>
      obtain ⟨rfl, rfl⟩ := popped
      have remaining : ∀ port ∈ rest, ∃ head ∈ progress.plan,
          (progress.unpeek packet.port).peeked port = some head := by
        intro port member
        have different : port ≠ packet.port := fun same => distinct.1 (same ▸ member)
        rw [progress.unpeek_other different]
        exact planned port (.tail _ member)
      refine (ih (fun port member => declared port (.tail _ member)) distinct.2
        ((progress.unpeek packet.port).keep packet) remaining).mono fun answer left later => ?_
      obtain ⟨progress', rfl, held, degraded, skipped, complete⟩ := later
      refine ⟨progress', rfl, held, degraded, skipped, ?_⟩
      simpa [Gathering.keep, Gathering.unpeek] using complete

theorem follows_dropStale (progress : Gathering π) (joins : env.Matches progress)
    (packets : List (PortDataPtr π)) (reason : String) (ports : List Nat) (distinct : ports.Nodup)
    (known : ∀ port ∈ ports, progress.Knows port (packets.getD port none)) :
    env.Follows (Prog.forEach (fun port => env.dropStaleHead node port (packets.getD port none)
        reason) ports) (gatherStack id node progress) fun _ left => ∃ peeked,
      left = gatherStack id node { progress with peeked } := by
  induction ports generalizing progress with
  | nil => exact .ret ⟨progress.peeked, rfl⟩
  | cons port rest ih =>
    rw [nodup_cons] at distinct
    obtain ⟨head, peeked, -, data⟩ := known port (by simp)
    rw [Prog.forEach, ← data]
    refine .seq (follows_dropStaleHead progress joins peeked reason) fun _ => ?_
    refine ih (progress.unpeek port) joins distinct.2 fun other member => ?_
    have different : other ≠ port := fun same => distinct.1 (same ▸ member)
    obtain ⟨head, before, facts⟩ := known other (.tail _ member)
    exact ⟨head, (progress.unpeek_other different).trans before, facts⟩

theorem follows_gatherAligned (progress : Gathering π) (empty : progress.held = [])
    (joins : env.Matches progress) (several : 1 < env.portCount node) :
    env.Follows (env.gatherAligned node) (gatherStack id node progress) fun answer left =>
      ∃ progress', left = gatherStack id node progress' ∧ progress'.held = answer.inputs.2 ∧
        progress'.degraded = progress.degraded ∧
        if answer.inputs.1 then env.Covers node progress' else progress'.dry = true := by
  have ports : env.ports node = List.range' 0 (env.portCount node) := range_eq_range'
  unfold gatherAligned
  rw [ports]
  refine .bind (follows_collectHeads progress joins several [] rfl (by simp))
    fun result left seen => ?_
  obtain ⟨skipped, peeked, rfl, collected⟩ := seen
  -- Nothing is held in any of the rounds that deliver nothing.
  have nothing : env.Follows (.ret (.gathered false []) : Code π (Answer π))
      (gatherStack id node { progress with skipped, peeked }) fun answer left =>
      ∃ progress', left = gatherStack id node progress' ∧ progress'.held = answer.inputs.2 ∧
        progress'.degraded = progress.degraded ∧
        if answer.inputs.1 then env.Covers node progress' else progress'.dry = true := by
    refine follows_ghost [] (.dryHands { progress with skipped, peeked } empty (.inl joins)) ?_
    exact .ret ⟨_, rfl, empty, rfl, rfl⟩
  cases result with
  | none => exact nothing
  | some heads =>
    obtain ⟨length, read⟩ := collected heads rfl
    rw [Nat.zero_add] at length
    simp only
    split
    · exact nothing
    split
    next aligned =>
      rw [← ports]
      generalize chosen : (env.ports node).filter
        (fun port => !(heads.getD port (true, none)).1) = openPorts
      have declared : ∀ port ∈ openPorts, port < env.portCount node := fun port member =>
        mem_range.mp (mem_filter.mp (chosen ▸ member)).1
      have distinct : openPorts.Nodup := chosen ▸ Nodup.filter _ nodup_range
      have known : ∀ port ∈ openPorts, ∃ data ∈ heads.map Prod.snd,
          { progress with skipped, peeked }.Knows port data := by
        intro port member
        have bound : port < heads.length := length ▸ declared port member
        have isOpen := (mem_filter.mp (chosen ▸ member)).2
        rw [getD_eq_getElem _ _ bound, Bool.not_eq_true'] at isOpen
        exact ⟨_, mem_map_of_mem (getElem_mem bound),
          (read port _ (getElem?_eq_getElem bound)).knows isOpen⟩
      have planned : ∀ port ∈ openPorts, ∃ head ∈ openPorts.filterMap peeked,
          peeked port = some head := by
        intro port member
        obtain ⟨-, -, head, found, -⟩ := known port member
        exact ⟨head, mem_filterMap.mpr ⟨port, member, found⟩, found⟩
      have facts : ∀ head ∈ openPorts.filterMap peeked, peeked head.port = some head ∧
          head.data ∈ heads.map Prod.snd := by
        intro head member
        obtain ⟨port, here, found⟩ := mem_filterMap.mp member
        obtain ⟨data, among, other, same, rfl, rfl⟩ := known port here
        obtain rfl := Option.some.inj (found.symm.trans same)
        exact ⟨found, among⟩
      refine follows_ghost [] (.align { progress with skipped, peeked }
        (openPorts.filterMap peeked) (.inl empty)
        (fun head member => (facts head member).1) (aligned_subset ?_ aligned)) ?_
      · intro data member
        obtain ⟨head, here, rfl⟩ := mem_map.mp member
        exact (facts head here).2
      refine (follows_popAligned _ declared distinct
        { progress with skipped, peeked, plan := openPorts.filterMap peeked } [] empty
        planned).mono fun answer left later => ?_
      obtain ⟨progress', rfl, held, degraded, same, complete⟩ := later
      refine ⟨progress', rfl, held, degraded, ?_⟩
      split
      next success =>
        rw [if_pos success, map_nil, nil_append] at complete
        refine .inr ⟨?_, fun port bound => ?_⟩
        · rw [complete, ← chosen]
          exact Pairwise.filter _ pairwise_lt_range
        · have inside : port < heads.length := length ▸ bound
          by_cases shut : heads[port].1 = true
          · exact .inl (same ▸ (read port _ (getElem?_eq_getElem inside)).closed shut)
          · refine .inr ?_
            rw [complete, ← chosen]
            refine mem_filter.mpr ⟨mem_range.mpr bound, ?_⟩
            rw [getD_eq_getElem _ _ inside]
            simpa using shut
      next failure =>
        rwa [if_neg failure] at complete
    split
    · exact nothing
    · obtain ⟨distinct, packets⟩ := env.stale_ofPackets (heads.map Prod.snd)
      refine .bind (follows_dropStale { progress with skipped, peeked } joins _ _ _
        distinct fun port member => ?_) fun _ left same => ?_
      · obtain ⟨packet, found⟩ := packets port member
        rw [getElem?_map, Option.map_eq_some_iff] at found
        obtain ⟨⟨_ | _, data⟩, here, rfl⟩ := found
        · have same : (heads.map Prod.snd).getD port none = some packet := by
            simp [getD_eq_getElem?_getD, here]
          rw [same]
          exact (read port _ here).knows rfl
        · cases (read port _ here).2
      · obtain ⟨peeked', rfl⟩ := same
        exact .invoke (.gatherAligned { progress with skipped, peeked := peeked' } empty joins
          several)

end Aligned

section Degraded

theorem follows_peekPorts {first count : Nat} (progress : Gathering π)
    (joins : env.Matches progress) (several : 1 < env.portCount node)
    (heads : List (Option (PortDataPtr π))) (counted : heads.length = first)
    (known : ∀ port data, heads[port]? = some (some data) → progress.Knows port data) :
    env.Follows (Env.peekPorts node (List.range' first count) heads)
      (gatherStack id node progress) fun heads' left => ∃ peeked,
        left = gatherStack id node { progress with peeked } ∧
        ∀ port data, heads'[port]? = some (some data) →
          { progress with peeked }.Knows port data := by
  induction count generalizing first progress heads with
  | zero => exact .ret ⟨progress.peeked, rfl, known⟩
  | succ count ih =>
    rw [List.range'_succ]
    refine .bind (.invoke (.peekHead progress joins several)) fun answer left seen => ?_
    obtain ⟨peeked, peeks, rfl⟩ := seen
    refine ih { progress with peeked } joins (heads ++ [answer.headPacket]) (by simp [counted]) ?_
    intro port data here
    rw [List.getElem?_append] at here
    split at here
    next bound => exact peeks.knows (by omega) (known port data here)
    next bound =>
      obtain ⟨last, same⟩ := List.getElem?_eq_some_iff.mp here
      rw [List.length_singleton] at last
      obtain rfl : port = first := by omega
      simp only [counted, Nat.sub_self, List.getElem_cons_zero] at same
      exact peeks.2 data same

def Gathering.Spent (progress : Gathering π) : Prop := progress.dry = true ∨ progress.held = []

def Env.Pairs (env : Env) (heads : List (Option (PortDataPtr π)))
    (reference : Option (PortData π)) (progress : Gathering π) (port : Nat) : Prop :=
  ∀ data, heads.getD port none = some data → ∃ head : Taken π,
    progress.peeked port = some head ∧ head.data = data ∧
      (env.pairsWithReference reference data = true → head ∈ progress.plan)

variable {progress : Gathering π}

theorem Env.Pairs.unpeek {heads : List (Option (PortDataPtr π))}
    {reference : Option (PortData π)} {port other : Nat}
    (different : other ≠ port) (pairs : env.Pairs heads reference progress other) :
    env.Pairs heads reference (progress.unpeek port) other := by
  intro data here
  obtain ⟨head, found, facts⟩ := pairs data here
  exact ⟨head, (progress.unpeek_other different).trans found, facts⟩

theorem follows_degradePorts (heads : List (Option (PortDataPtr π)))
    (reference : Option (PortData π)) (ports : List Nat)
    (declared : ∀ port ∈ ports, port < env.portCount node) (distinct : ports.Nodup)
    (delivered : Bool) (progress : Gathering π) (taken : List (Taken π))
    (holding : progress.held = taken) (degraded : progress.degraded = true)
    (spent : delivered = false → progress.Spent)
    (pairs : ∀ port ∈ ports, env.Pairs heads reference progress port) :
    env.Follows (env.degradePorts node heads reference ports delivered taken)
      (gatherStack id node progress) fun result left => ∃ progress',
        left = gatherStack id node progress' ∧ progress'.held = result.2 ∧
        progress'.degraded = true ∧ (result.1 = false → progress'.Spent) := by
  subst holding
  induction ports generalizing delivered progress with
  | nil => exact .ret ⟨progress, rfl, rfl, degraded, spent⟩
  | cons port rest ih =>
    rw [nodup_cons] at distinct
    have remaining := fun port member => declared port (.tail _ member)
    have later (other : Nat) (member : other ∈ rest) : env.Pairs heads reference progress other :=
      pairs other (.tail _ member)
    have beyond (other : Nat) (member : other ∈ rest) :
        env.Pairs heads reference (progress.unpeek port) other :=
      (later other member).unpeek fun same => distinct.1 (same ▸ member)
    unfold degradePorts
    split
    · exact ih remaining distinct.2 delivered progress degraded spent later
    next data here =>
    obtain ⟨head, peeked, rfl, chosen⟩ := pairs port (by simp) _ here
    split
    · exact ih remaining distinct.2 delivered progress degraded spent later
    next paired =>
    rw [Bool.not_eq_true', Bool.not_eq_false] at paired
    split
    · refine .bind (follows_popAndDeliver (declared port (by simp)) progress
        fun _ => ⟨head, chosen paired, peeked⟩) fun taken left popped => ?_
      cases taken with
      | none =>
        subst popped
        exact ih remaining distinct.2 delivered { progress with dry := true } degraded
          (fun _ => .inl rfl) later
      | some packet =>
        obtain ⟨rfl, rfl⟩ := popped
        exact ih remaining distinct.2 true ((progress.unpeek packet.port).keep packet) degraded
          (by simp) beyond
    · refine .seq (follows_dropStaleHead progress (.inr (.inr degraded)) peeked _)
        fun _ => ?_
      exact ih remaining distinct.2 delivered (progress.unpeek port) degraded spent beyond

theorem Gathering.Spent.gathered (spent : progress.Spent) (joins : env.Matches progress) :
    env.Follows (.ret none) (gatherStack id node progress) (env.Gathered id node) := by
  rcases spent with dry | empty
  · exact .ret ⟨progress, rfl, dry⟩
  · exact follows_ghost [] (.dryHands progress empty (.inl joins)) (.ret ⟨_, rfl, rfl⟩)

theorem follows_degradeJoinGather (several : 1 < env.portCount node) (progress : Gathering π)
    (taken : List (Taken π)) (holding : progress.held = taken) (degraded : progress.degraded = true)
    (spent : progress.Spent) :
    env.Follows (env.degradeJoinGather node taken) (gatherStack id node progress)
      (env.Gathered id node) := by
  have joins : env.Matches progress := .inr (.inr degraded)
  have ports : env.ports node = List.range' 0 (env.portCount node) := range_eq_range'
  unfold degradeJoinGather
  rw [ports]
  refine .bind (follows_peekPorts progress joins several [] rfl (by simp))
    fun heads left seen => ?_
  obtain ⟨peeked, rfl, known⟩ := seen
  rw [← ports]
  dsimp only
  split
  · exact Gathering.Spent.gathered spent joins
  · refine (silent_count _).andThen fun _ => ?_
    generalize choose : (env.ports node).filterMap (fun port =>
      if (heads.getD port none).any (env.pairsWithReference (env.degradeReference heads))
      then peeked port else none) = plan
    have found {port : Nat} {data : PortDataPtr π} (here : heads.getD port none = some data) :
        heads[port]? = some (some data) := by
      rw [getD_eq_getElem?_getD] at here
      cases entry : heads[port]? with
      | none => rw [entry] at here; cases here
      | some value => rw [entry] at here; exact congrArg some here
    -- What is planned was peeked, and pairs with the reference.
    have planned : ∀ head ∈ plan, peeked head.port = some head ∧ some head.data ∈ heads ∧
        env.pairsWithReference (env.degradeReference heads) head.data = true := by
      intro head member
      rw [← choose] at member
      obtain ⟨port, -, chosen⟩ := mem_filterMap.mp member
      rw [Option.ite_none_right_eq_some, Option.any_eq_true] at chosen
      obtain ⟨⟨data, here, paired⟩, same⟩ := chosen
      obtain ⟨other, peeks, rfl, rfl⟩ := known port data (found here)
      obtain rfl := Option.some.inj (same.symm.trans peeks)
      exact ⟨same, mem_of_getElem? (found here), paired⟩
    have pairs : ∀ port ∈ env.ports node, env.Pairs heads (env.degradeReference heads)
        { progress with peeked, plan } port := by
      intro port member data here
      obtain ⟨head, peeks, -, rfl⟩ := known port data (found here)
      refine ⟨head, peeks, rfl, fun paired => ?_⟩
      rw [← choose]
      refine mem_filterMap.mpr ⟨port, member, ?_⟩
      rw [here, Option.any_some, if_pos paired]
      exact peeks
    have aligned : env.framePolicy.aligned (plan.map Taken.data) = true := by
      refine @Env.paired_aligned π env heads _ (fun data member => ?_) fun data member => ?_ <;>
        obtain ⟨head, here, rfl⟩ := mem_map.mp member
      · exact (planned head here).2.1
      · exact (planned head here).2.2
    refine follows_ghost [] (.align { progress with peeked } plan spent.symm
      (fun head member => (planned head member).1) aligned) ?_
    refine .bind (follows_degradePorts _ _ _ (fun port => mem_range.mp)
      nodup_range false { progress with peeked, plan } taken holding degraded (fun _ => spent)
      pairs) fun result left later => ?_
    obtain ⟨progress', rfl, held, degraded', spent'⟩ := later
    obtain ⟨delivered, inputs⟩ := result
    cases delivered with
    | true => exact .ret ⟨progress', rfl, held, .inl degraded'⟩
    | false => exact (spent' rfl).gathered (.inr (.inr degraded'))

theorem follows_takeDegradeRequest (progress : Gathering π) :
    env.Follows (env.takeDegradeRequest node) (gatherStack id node progress) fun requested left =>
      left = gatherStack id node
        (if requested then { progress with degraded := true } else progress) := by
  unfold takeDegradeRequest
  split
  · exact .ret rfl
  · refine follows_access fun choice state answer state' made => ?_
    cases made
    have cleared : view (state.updateNode node fun entry =>
          { entry with degradePending := false }) =
        { view state with degrade := Function.update (view state).degrade node false } := by
      rw [view_updateNode state node _ _ rfl]
      simp [view, State.latched]
    rw [cleared]
    by_cases pending : (state.node node).degradePending = true
    · refine ⟨_, advance (.gather (.takeDegrade pending)), ?_⟩
      rw [if_pos pending]
    · refine ⟨_, advance (.gather (.keepDegrade (Bool.eq_false_iff.mpr pending))), ?_⟩
      rw [if_neg pending]

theorem silent_anyPortDry (ports : List Nat) : env.Silent (π := π) (anyPortDry node ports) := by
  induction ports with
  | nil => exact silent_ret false
  | cons port rest ih =>
    refine (silent_portEmpty port).bind fun empty => ?_
    split
    · exact silent_ret true
    · exact ih

end Degraded

theorem follows_gatherNodeInputs :
    env.Follows (env.gatherNodeInputs node) (gatherStack id node {}) (env.Gathered (π := π) id node)
    := by
  unfold gatherNodeInputs
  split
  next several =>
    refine .seq (follows_takeDegradeRequest _) fun requested => ?_
    generalize start : (if requested then { ({} : Gathering π) with degraded := true } else {}) =
      progress
    have empty : progress.held = [] := by
      subst start
      split <;> rfl
    have degraded : requested = true → progress.degraded = true := by
      rintro rfl
      subst start
      rfl
    split
    next aligned =>
      have joins : env.Matches progress := by
        simp only [Bool.or_eq_true, bne_iff_ne] at aligned
        exact aligned.imp_right .inl
      refine .bind (.invoke (.gatherAligned progress empty joins several))
        fun answer left later => ?_
      obtain ⟨progress', rfl, held, same, outcome⟩ := later
      rcases inputs : answer.inputs with ⟨complete, taken⟩
      rw [inputs] at held outcome
      cases complete with
      | true => exact .ret ⟨progress', rfl, held, outcome⟩
      | false =>
        simp only [Bool.false_eq_true, if_false] at outcome ⊢
        split
        next asked =>
          exact follows_degradeJoinGather several progress' taken held (same.trans (degraded asked))
            (.inl outcome)
        · exact .ret ⟨progress', rfl, outcome⟩
    next unaligned =>
    have plain : ¬ env.Aligns node := fun aligns => unaligned (by simpa using aligns.2)
    split
    next asked =>
      refine (silent_anyPortDry _).andThen fun dry => ?_
      split
      · exact follows_degradeJoinGather several progress [] empty (degraded asked) (.inr empty)
      · exact follows_plainGather plain progress empty
    · exact follows_plainGather plain progress empty
  next single => exact follows_plainGather (fun aligns => single aligns.1) {} rfl

end AiPipe
