import JrtController.ListedGraphProofs
import JrtController.CodeletSetProofs

/-! # What the checks of a codelet set ensure

    `JBPFConfigFromYaml` expands a configuration, fills in defaults and then checks two
    things: that a channel with a destination has a serde, and that the linked maps can
    be loaded in the order of the codelets.

    * `checks_of_accepted` — the stages an accepted configuration went through;
    * `kept_of_accepted` — what the stages before the checks leave as the file has it;
    * `accepted_serdes_iff` — the first check covers the outputs of no codelet;
    * `checkLinks_eq_ok_iff` — the second check, entry by entry;
    * `accepted_links_iff` — it orders the linked maps, but rules out cycles only as
      long as no name that is listed again is linked back to. -/

namespace JrtcCodeletCheck

open Relation Loops ListedGraph JrtcCodeletSet

variable {host : Host} {file : String} {raw cfg : JBPFCLIConfig}

/-- The configuration as the file has it. -/
def readYaml (host : Host) (file : String) : Except String JBPFCLIConfig := do
  let data ← host.readFile file
  host.unmarshalYaml data

/-- **THE STAGES** of an accepted configuration. -/
theorem checks_of_accepted (h : jbpfConfigFromYaml host file = .ok cfg) :
    ∃ raw expanded, readYaml host file = .ok raw ∧ expandEnvVars host raw = .ok expanded
      ∧ cfg = setDefaults expanded ∧ cfg.codelets.forM checkSerdes = .ok ()
      ∧ checkLinks [] cfg.codelets = .ok () := by
  obtain ⟨dir, -, h⟩ := bind_eq_ok_iff.mp h
  cases dir with
  | true => cases h
  | false =>
      obtain ⟨data, hdata, h⟩ := bind_eq_ok_iff.mp h
      obtain ⟨raw, hraw, h⟩ := bind_eq_ok_iff.mp h
      obtain ⟨expanded, hexp, h⟩ := bind_eq_ok_iff.mp h
      obtain ⟨⟨⟩, hserdes, h⟩ := bind_eq_ok_iff.mp h
      obtain ⟨⟨⟩, hlinks, h⟩ := bind_eq_ok_iff.mp h
      have hread : readYaml host file = .ok raw := bind_eq_ok_iff.mpr ⟨data, hdata, hraw⟩
      cases h
      exact ⟨raw, expanded, hread, hexp, rfl, hserdes, hlinks⟩

/-! ## What the stages keep -/

/-- The parts of a codelet that no stage changes: an expansion rewrites the path of a
    package, a default the destination of a channel. -/
def kept (c : JBPFCLICodeletConfig) : String × List LinkedMapConfig × List Bool :=
  (c.name, c.linkedMaps, c.outIOChannel.map fun m =>
    decide (m.forwardDestination = "" ∨ m.forwardDestination = defaultForwardingDestination
      ∨ m.serde ≠ none))

theorem expandChannel_keeps {m m' : IOChannelConfig} (h : expandChannel host m = .ok m') :
    m'.forwardDestination = m.forwardDestination ∧ (m'.serde = none ↔ m.serde = none) := by
  rw [expandChannel] at h
  cases hserde : m.serde with
  | none =>
      rw [hserde] at h
      cases h
      exact ⟨rfl, iff_of_eq (congrArg (· = none) hserde)⟩
  | some serde =>
      rw [hserde] at h
      obtain ⟨⟨⟩, -, h⟩ := bind_eq_ok_iff.mp h
      cases hproto : serde.protobuf with
      | none =>
          rw [hproto] at h
          cases h
          exact ⟨rfl, by rw [hserde]⟩
      | some p =>
          rw [hproto] at h
          obtain ⟨⟨⟩, -, h⟩ := bind_eq_ok_iff.mp h
          cases h
          exact ⟨rfl, iff_of_false (Option.some_ne_none _) (Option.some_ne_none _)⟩

theorem setDefault_keeps (m : IOChannelConfig) :
    (setDefault m).serde = m.serde
      ∧ ((setDefault m).forwardDestination = ""
          ∨ (setDefault m).forwardDestination = defaultForwardingDestination
        ↔ m.forwardDestination = ""
          ∨ m.forwardDestination = defaultForwardingDestination) := by
  rw [setDefault]
  by_cases h : m.forwardDestination = ""
  · rw [if_pos h]
    exact ⟨rfl, iff_of_true (Or.inr rfl) (Or.inl h)⟩
  · rw [if_neg h]
    exact ⟨rfl, Iff.rfl⟩

/-- **THE STAGES BEFORE THE CHECKS** leave these parts as the file has them. -/
theorem kept_of_stages {expanded : JBPFCLIConfig} (h : expandEnvVars host raw = .ok expanded) :
    (setDefaults expanded).codelets.map kept = raw.codelets.map kept := by
  obtain ⟨codelets, hmap, hret⟩ := bind_eq_ok_iff.mp h
  cases hret
  show (codelets.map _).map kept = _
  rw [List.map_map]
  refine map_eq_of_mapM hmap fun c _ c' hc => ?_
  obtain ⟨⟨⟩, -, hc⟩ := bind_eq_ok_iff.mp hc
  obtain ⟨ins, -, hc⟩ := bind_eq_ok_iff.mp hc
  obtain ⟨outs, houts, hc⟩ := bind_eq_ok_iff.mp hc
  cases hc
  show (c.name, c.linkedMaps, (outs.map setDefault).map _) = (c.name, c.linkedMaps, _)
  rw [List.map_map]
  refine congrArg (fun l => (c.name, c.linkedMaps, l)) (map_eq_of_mapM houts ?_)
  intro m _ m' hm
  obtain ⟨hdest, hserde⟩ := expandChannel_keeps hm
  obtain ⟨hserde', hdest'⟩ := setDefault_keeps m'
  refine decide_eq_decide.mpr ?_
  rw [← or_assoc, ← or_assoc, hdest', hserde', hdest, Ne, Ne, hserde]

theorem kept_of_accepted (hraw : readYaml host file = .ok raw)
    (h : jbpfConfigFromYaml host file = .ok cfg) :
    cfg.codelets.map kept = raw.codelets.map kept := by
  obtain ⟨raw', expanded, hraw', hexp, rfl, -⟩ := checks_of_accepted h
  cases hraw.symm.trans hraw'
  exact kept_of_stages hexp

/-! ## The serdes -/

/-- A channel with a destination has a serde. -/
def HasSerdes (cfg : JBPFCLIConfig) : Prop :=
  ∀ c ∈ cfg.codelets, ∀ m, m ∈ c.inIOChannel ∨ m ∈ c.outIOChannel →
    m.forwardDestination ≠ defaultForwardingDestination → m.serde ≠ none

/-- No output of the file has a destination and no serde. -/
def OutputsServed (cfg : JBPFCLIConfig) : Prop :=
  ∀ c ∈ cfg.codelets, ∀ m ∈ c.outIOChannel, m.forwardDestination = ""
    ∨ m.forwardDestination = defaultForwardingDestination ∨ m.serde ≠ none

theorem outputsServed_iff (cfg : JBPFCLIConfig) :
    OutputsServed cfg ↔ ∀ k ∈ cfg.codelets.map kept, ∀ b ∈ k.2.2, b = true := by
  rw [List.forall_mem_map]
  refine forall₂_congr fun c _ => ?_
  show _ ↔ ∀ b ∈ c.outIOChannel.map _, b = true
  rw [List.forall_mem_map]
  exact forall₂_congr fun m _ => decide_eq_true_iff.symm

/-- After the defaults no destination is empty. -/
theorem forwardDestination_ne_of_accepted (h : jbpfConfigFromYaml host file = .ok cfg)
    {c : JBPFCLICodeletConfig} (hc : c ∈ cfg.codelets) {m : IOChannelConfig}
    (hm : m ∈ c.outIOChannel) : m.forwardDestination ≠ "" := by
  obtain ⟨raw, expanded, -, -, rfl, -⟩ := checks_of_accepted h
  obtain ⟨c', -, rfl⟩ := List.mem_map.mp hc
  obtain ⟨m', -, rfl⟩ := List.mem_map.mp hm
  rw [setDefault]
  by_cases hm' : m'.forwardDestination = ""
  · rw [if_pos hm']
    show defaultForwardingDestination ≠ ""
    decide
  · rw [if_neg hm']
    exact hm'

/-- **AN ACCEPTED CONFIGURATION** has its serdes iff the outputs have theirs, which
    nothing checks. -/
theorem accepted_serdes_iff {host : Host} {file : String} {raw cfg : JBPFCLIConfig}
    (hraw : readYaml host file = .ok raw) (h : jbpfConfigFromYaml host file = .ok cfg) :
    HasSerdes cfg ↔ OutputsServed raw := by
  obtain ⟨-, -, -, -, -, hserdes, -⟩ := checks_of_accepted h
  rw [outputsServed_iff, ← kept_of_accepted hraw h, ← outputsServed_iff]
  constructor
  · intro hall c hc m hm
    by_cases hdest : m.forwardDestination = defaultForwardingDestination
    · exact Or.inr (Or.inl hdest)
    · exact Or.inr (Or.inr (hall c hc m (Or.inr hm) hdest))
  · rintro hall c hc m (hm | hm) hdest
    · have hchecked := (checkSerdes_eq_ok_iff c).mp (forM_eq_ok_iff.mp hserdes c hc)
      exact (hchecked m hm).resolve_left hdest
    · have hne := forwardDestination_ne_of_accepted h hc hm
      exact ((hall c hc m hm).resolve_left hne).resolve_left hdest

/-- A machine on which every file is there, and the configuration is the given one. -/
def machineWith (cfg : JBPFCLIConfig) : Host where
  expandEnv := id
  stat := fun _ => .ok false
  readFile := fun _ => .ok []
  unmarshalYaml := fun _ => .ok cfg
  murmurHash64A := fun _ _ => 0

/-- A codelet with linked maps to other codelets, and outputs. -/
def codeletWith (name : String) (links : List String) (outs : List IOChannelConfig) :
    JBPFCLICodeletConfig where
  hookName := "hook"
  inIOChannel := []
  linkedMaps := links.map fun link => ⟨link, "counter", "counter"⟩
  name := name
  codeletPath := "codelet.o"
  outIOChannel := outs
  priority := none
  runtimeThreshold := none

/-- An output over UDP, with a serde or without. -/
def udpOutput (serde : Option SerdeConfig) : JBPFCLIConfig :=
  ⟨[codeletWith "codelet" [] [⟨"DestinationUDP", "out", serde⟩]], "set"⟩

theorem served_udpOutput : HasSerdes (udpOutput (some ⟨"serde.so", none⟩)) := by
  refine (@accepted_serdes_iff (machineWith (udpOutput (some ⟨"serde.so", none⟩)))
    "set.yaml" _ _ rfl rfl).mpr ?_
  intro c hc m hm
  rw [List.mem_singleton.mp hc] at hm
  rw [List.mem_singleton.mp hm]
  exact Or.inr (Or.inr (Option.some_ne_none _))

/-- The output is not among the channels that are looked at. -/
theorem unserved_udpOutput_accepted :
    ¬ ∀ (host : Host) (file : String) (cfg : JBPFCLIConfig),
      jbpfConfigFromYaml host file = .ok cfg → HasSerdes cfg := by
  intro h
  have hall := h (machineWith (udpOutput none)) "set.yaml" (udpOutput none) rfl
  exact hall _ List.mem_cons_self _ (Or.inr List.mem_cons_self) (by decide) rfl

/-! ## The linked maps -/

/-- A codelet named `x` has a linked map to a codelet `y`. -/
def Linked (codelets : List JBPFCLICodeletConfig) (x y : String) : Prop :=
  ∃ c ∈ codelets, c.name = x ∧ ∃ l ∈ c.linkedMaps, l.linkedCodeletName = y

/-- Every linked codelet is listed before the codelet that refers to it. -/
def LinksEarlier (codelets : List JBPFCLICodeletConfig) : Prop :=
  ∀ before c after, codelets = before ++ c :: after →
    ∀ l ∈ c.linkedMaps, ∃ c' ∈ before, c'.name = l.linkedCodeletName

/-- No codelet under a name that was listed before is linked to a codelet from which
    the codelets before it lead back to that name. -/
def NoLinkBack (codelets : List JBPFCLICodeletConfig) : Prop :=
  ∀ before c after, codelets = before ++ c :: after → (∃ c' ∈ before, c'.name = c.name) →
    ∀ l ∈ c.linkedMaps, ¬ ReflTransGen (Linked before) l.linkedCodeletName c.name

theorem checkLink_eq_ok_iff (isQueued : List String) (codelet : JBPFCLICodeletConfig)
    (l : LinkedMapConfig) : checkLink isQueued codelet l = .ok ()
      ↔ l.linkedCodeletName ≠ codelet.name ∧ l.linkedCodeletName ∈ isQueued := by
  rw [checkLink]
  split
  case isTrue h => exact iff_of_false (fun he => by cases he) fun hne => hne.1 h
  case isFalse h =>
      split
      case isTrue hin => exact iff_of_true rfl ⟨h, hin⟩
      case isFalse hout => exact iff_of_false (fun he => by cases he) fun hne => hout hne.2

/-- **THE CHECK OF THE LINKED MAPS**: each leads to another name, which is queued or
    that of a codelet before. -/
theorem checkLinks_eq_ok_iff (isQueued : List String) (codelets : List JBPFCLICodeletConfig) :
    checkLinks isQueued codelets = .ok ()
      ↔ ∀ before c after, codelets = before ++ c :: after → ∀ l ∈ c.linkedMaps,
          l.linkedCodeletName ≠ c.name
            ∧ (l.linkedCodeletName ∈ isQueued
              ∨ ∃ c' ∈ before, c'.name = l.linkedCodeletName) := by
  induction codelets generalizing isQueued with
  | nil => exact iff_of_true rfl fun before c after h => by simp at h
  | cons d codelets ih =>
      rw [checkLinks, bind_eq_ok_iff]
      constructor
      · rintro ⟨⟨⟩, hhead, htail⟩ before c after heq l hl
        cases before with
        | nil =>
            cases heq
            have hlink := (checkLink_eq_ok_iff ..).mp (forM_eq_ok_iff.mp hhead l hl)
            exact ⟨hlink.1, Or.inl hlink.2⟩
        | cons d' before =>
            cases heq
            obtain ⟨hne, hin⟩ := (ih _).mp htail before c after rfl l hl
            refine ⟨hne, ?_⟩
            rcases hin with hin | ⟨c', hc', hname⟩
            · rcases List.mem_cons.mp hin with hin | hin
              · exact Or.inr ⟨d, List.mem_cons_self, hin.symm⟩
              · exact Or.inl hin
            · exact Or.inr ⟨c', List.mem_cons_of_mem d hc', hname⟩
      · intro hall
        refine ⟨(), forM_eq_ok_iff.mpr fun l hl => (checkLink_eq_ok_iff ..).mpr ?_,
          (ih _).mpr ?_⟩
        · obtain ⟨hne, hin⟩ := hall [] d codelets rfl l hl
          refine ⟨hne, hin.resolve_right ?_⟩
          rintro ⟨c', hc', -⟩
          exact List.not_mem_nil hc'
        · rintro before c after rfl l hl
          obtain ⟨hne, hin⟩ := hall (d :: before) c after rfl l hl
          refine ⟨hne, ?_⟩
          rcases hin with hin | ⟨c', hc', hname⟩
          · exact Or.inl (List.mem_cons_of_mem _ hin)
          · rcases List.mem_cons.mp hc' with rfl | hc'
            · exact Or.inl (hname ▸ List.mem_cons_self)
            · exact Or.inr ⟨c', hc', hname⟩

theorem linksEarlier_of_accepted (h : jbpfConfigFromYaml host file = .ok cfg) :
    LinksEarlier cfg.codelets := by
  obtain ⟨-, -, -, -, -, -, hlinks⟩ := checks_of_accepted h
  intro before c after heq l hl
  have hcheck := (checkLinks_eq_ok_iff [] _).mp hlinks before c after heq l hl
  exact hcheck.2.resolve_left List.not_mem_nil

/-! The codelets as a listed graph. -/

/-- A codelet as an entry: its name, and the names it is linked to. -/
def entry (c : JBPFCLICodeletConfig) : String × List String :=
  (c.name, c.linkedMaps.map LinkedMapConfig.linkedCodeletName)

theorem linked_eq_edge (codelets : List JBPFCLICodeletConfig) :
    Linked codelets = Edge (codelets.map entry) := by
  funext x y
  refine propext ⟨?_, ?_⟩
  · rintro ⟨c, hc, hx, l, hl, hy⟩
    exact ⟨entry c, List.mem_map_of_mem hc, hx, List.mem_map.mpr ⟨l, hl, hy⟩⟩
  · rintro ⟨n, hn, hx, hy⟩
    obtain ⟨c, hc, rfl⟩ := List.mem_map.mp hn
    obtain ⟨l, hl, hy⟩ := List.mem_map.mp hy
    exact ⟨c, hc, hx, l, hl, hy⟩

theorem mem_names_iff {codelets : List JBPFCLICodeletConfig} {x : String} :
    x ∈ (codelets.map entry).map Prod.fst ↔ ∃ c ∈ codelets, c.name = x := by
  rw [List.map_map]
  exact List.mem_map

theorem linksEarlier_iff (codelets : List JBPFCLICodeletConfig) :
    LinksEarlier codelets ↔ Backward (codelets.map entry) := by
  rw [Backward, forall_split_map (P := fun before n => ∀ y ∈ n.2, y ∈ before.map Prod.fst)]
  refine forall₄_congr fun before c after _ => ?_
  show _ ↔ ∀ y ∈ c.linkedMaps.map _, y ∈ (before.map entry).map Prod.fst
  rw [List.forall_mem_map]
  exact forall₂_congr fun l _ => mem_names_iff.symm

/-- The condition reads nothing of a codelet but its entry. -/
theorem noLinkBack_iff (codelets : List JBPFCLICodeletConfig) :
    NoLinkBack codelets
      ↔ ∀ before n after, codelets.map entry = before ++ n :: after →
        n.1 ∈ before.map Prod.fst → ∀ y ∈ n.2, ¬ ReflTransGen (Edge before) y n.1 := by
  rw [forall_split_map (P := fun before n => n.1 ∈ before.map Prod.fst →
    ∀ y ∈ n.2, ¬ ReflTransGen (Edge before) y n.1)]
  refine forall₄_congr fun before c after _ => ?_
  rw [mem_names_iff, ← linked_eq_edge]
  refine imp_congr Iff.rfl ?_
  show _ ↔ ∀ y ∈ c.linkedMaps.map _, _
  rw [List.forall_mem_map]
  rfl

theorem map_entry_of_accepted (hraw : readYaml host file = .ok raw)
    (h : jbpfConfigFromYaml host file = .ok cfg) :
    cfg.codelets.map entry = raw.codelets.map entry := by
  have hkept := congrArg
    (List.map fun k => (k.1, k.2.1.map LinkedMapConfig.linkedCodeletName))
    (kept_of_accepted hraw h)
  rw [List.map_map, List.map_map] at hkept
  exact hkept

/-- **THE LINKED MAPS OF AN ACCEPTED CONFIGURATION** lead to earlier codelets; over the
    names they are free of cycles iff no name that is listed again is linked back to. -/
theorem accepted_links_iff {host : Host} {file : String} {raw cfg : JBPFCLIConfig}
    (hraw : readYaml host file = .ok raw) (h : jbpfConfigFromYaml host file = .ok cfg) :
    Acyclic (Linked cfg.codelets) ∧ LinksEarlier cfg.codelets ↔ NoLinkBack raw.codelets := by
  have hearlier : LinksEarlier cfg.codelets := linksEarlier_of_accepted h
  rw [and_iff_left hearlier, linked_eq_edge,
    acyclic_iff_of_backward ((linksEarlier_iff _).mp hearlier),
    map_entry_of_accepted hraw h, ← noLinkBack_iff]

/-- Where no name is listed twice there is nothing to be linked back to. -/
theorem noLinkBack_of_nodup {codelets : List JBPFCLICodeletConfig}
    (h : (codelets.map JBPFCLICodeletConfig.name).Nodup) : NoLinkBack codelets := by
  rintro before c after rfl ⟨c', hc', hname⟩
  rw [List.map_append, List.map_cons] at h
  have hapart := (List.nodup_append.mp h).2.2
  exact absurd hname (hapart _ (List.mem_map_of_mem hc') _ List.mem_cons_self)

/-- A chain of two codelets. -/
def chain : JBPFCLIConfig :=
  ⟨[codeletWith "codelet1" [] [], codeletWith "codelet2" ["codelet1"] []], "set"⟩

theorem chain_links_ordered :
    Acyclic (Linked chain.codelets) ∧ LinksEarlier chain.codelets :=
  (@accepted_links_iff (machineWith chain) "set.yaml" _ _ rfl rfl).mpr
    (noLinkBack_of_nodup (by decide))

/-- The chain, and its first codelet again, linked to the second. -/
def listedAgain : JBPFCLIConfig :=
  ⟨[codeletWith "codelet1" [] [], codeletWith "codelet2" ["codelet1"] [],
    codeletWith "codelet1" ["codelet2"] []], "set"⟩

theorem listedAgain_links_cyclic :
    ¬ ∀ (host : Host) (file : String) (cfg : JBPFCLIConfig),
      jbpfConfigFromYaml host file = .ok cfg →
      Acyclic (Linked cfg.codelets) ∧ LinksEarlier cfg.codelets := by
  intro h
  have hall := h (machineWith listedAgain) "set.yaml" listedAgain rfl
  have hthere : Linked listedAgain.codelets "codelet1" "codelet2" :=
    ⟨_, List.mem_cons_of_mem _ (List.mem_cons_of_mem _ List.mem_cons_self), rfl, _,
      List.mem_cons_self, rfl⟩
  have hback : Linked listedAgain.codelets "codelet2" "codelet1" :=
    ⟨_, List.mem_cons_of_mem _ List.mem_cons_self, rfl, _, List.mem_cons_self, rfl⟩
  exact hall.1 "codelet1" ((TransGen.single hthere).tail hback)

end JrtcCodeletCheck
