import CompactChain.Proofs.Session.Requests

set_option autoImplicit false

namespace CompactChain

open Cache (Apart Owned handlesAt owns owns_iff)
open CompactChain.Tree (Framed Near OnTheWay Shares Trails)

section Directories

variable {path : String}

theorem components_join (path : String) (network : Network) :
    ∃ front, (Path.componentsAfter [] path.toList = front ∨
        Path.componentsAfter [] path.toList = front ++ [""]) ∧
      Path.componentsAfter [] (settingsOf path network).directory.toList = front ++ [network.tag] := by
  have slashless : '/' ∉ network.tag.toList := by cases network <;> simp [Network.tag]
  unfold Settings.directory Settings.join
  split
  next empty =>
    refine ⟨[], .inr (by rw [show path = "" from empty]; rfl), ?_⟩
    simp [settingsOf, Path.componentsAfter_plain slashless]
  split
  next ended =>
    obtain ⟨front, spelled⟩ := List.getLast?_eq_some_iff.mp ended
    have spelled : path.toList = front ++ '/' :: [] := spelled
    refine ⟨Path.componentsAfter [] front, .inr ?_, ?_⟩
    · rw [spelled, Path.componentsAfter_slash]
      rfl
    · simp [settingsOf, String.toList_append, spelled, Path.componentsAfter_slash,
        Path.componentsAfter_plain slashless]
  next =>
    refine ⟨_, .inl rfl, ?_⟩
    simp [settingsOf, String.toList_append, Path.componentsAfter_slash,
      Path.componentsAfter_plain slashless]

theorem home_eq (path : String) (network : Network) :
    (settingsOf path network).home = Path.spelled path ++ [network.tag] := by
  obtain ⟨front, before, joined⟩ := components_join path network
  have spelled : Path.spelled path = front.foldl Path.step [] := by
    rcases before with same | ended
    · rw [Path.spelled, same]
    · simp [Path.spelled, ended, Path.step, Path.stays]
  rw [Settings.home, Path.spelled, joined, spelled, List.foldl_append]
  apply Path.step_down <;> cases network <;> decide

theorem home_above {network other : Network} (same : (settingsOf path other).home <+:
    (settingsOf path network).home) : other = network := by
  rw [home_eq, home_eq, List.prefix_append_right_inj] at same
  exact Network.tag_injective (by simpa using same)

def Settled (tree : Tree) (path : String) (networks : List Network) (place : Path) : Prop :=
  tree.find? place = some .directory ∧ ¬ OwnedBy path networks place

/-- Wherever the path leads, either it stays above the directories of the caches, or a directory
stands there that is not one of their files. -/
def Firm (tree : Tree) (path : String) (networks : List Network) : Prop :=
  ∀ network ∈ networks, ∀ place, OnTheWay (settingsOf path network).directory place →
    Near (Settled tree path networks) (settingsOf path network).home place

theorem firm_of_plain (tree : Tree) (networks : List Network)
    (plain : ".." ∉ Path.componentsAfter [] path.toList) : Firm tree path networks := by
  intro network _ place on
  refine .inl (Tree.above_of_onTheWay ?_ on)
  obtain ⟨front, before, joined⟩ := components_join path network
  have within : ".." ∉ front := fun member => plain <| by
    rcases before with same | ended
    · rwa [same]
    · rw [ended]
      exact List.mem_append_left _ member
  rw [joined, List.mem_append, List.mem_singleton]
  exact fun member => member.elim within (by cases network <;> decide)

theorem owned_apart {network other : Network} (differ : other ≠ network) {place : Path}
    (along : place <+: (settingsOf path network).home ∨ (settingsOf path network).home <+: place) :
    ¬ Owned (settingsOf path other).home place := by
  rintro ⟨name, -, within⟩
  have within := (List.prefix_append _ _).trans within
  rcases along with above | below
  · exact differ (home_above (within.trans above))
  · rcases List.prefix_or_prefix_of_prefix within below with one | two
    · exact differ (home_above one)
    · exact differ (home_above two).symm

/-- No way to a cache leads through what one of them takes for a file of its own. -/
def Clear (path : String) (networks : List Network) : Prop :=
  ∀ place, OnWayTo path networks place → ¬ OwnedBy path networks place

end Directories

structure Response.Akin (one two : Response) : Prop where
  answer : one.answer = two.answer ∨
    ∃ first second, Cache.Akin first second ∧ one.answer = .done first ∧ two.answer = .done second
  warnings : one.warnings = two.warnings
  stop : one.stop = two.stop

theorem Response.akin_refl (response : Response) : response.Akin response :=
  ⟨.inl rfl, rfl, rfl⟩

namespace Session

variable {path : String} {network : Network}

theorem lockstep_trails {settled : Path → Prop}
    (near : ∀ place, OnTheWay (settingsOf path network).directory place →
      Near settled (settingsOf path network).home place)
    (free : ∀ place, settled place → ¬ Owned (settingsOf path network).home place) :
    Lockstep path network (Trails settled (settingsOf path network).home) Eq where
  refl _ := rfl
  files trails := Cache.files_eq (fun _ owned => Cache.isPrefixOf_of_owned owned) trails.below
  stored trails files := Cache.store_trails free trails files
  opened trails startHeight syncFrom capacity medium := by
    obtain ⟨opened, found⟩ := Cache.openIn_likewise ⟨network, startHeight, syncFrom, capacity, path⟩ near
      free trails medium
    simp only [Session.respond, opened.answer, opened.warnings, Cache.stop?_eq found, true_and,
      and_true]
    exact opened.trees

theorem lockstep_shares (apart : Apart (settingsOf path network)) :
    Lockstep path network (Shares (OnTheWay (settingsOf path network).directory)
      (owns (settingsOf path network).home)) Response.Akin where
  refl := Response.akin_refl
  files shares := Cache.files_eq (fun _ owned => owns_iff.mpr owned) shares.own
  stored shares files := Cache.store_shares apart shares files
  opened shares startHeight syncFrom capacity medium := by
    obtain ⟨opened, found⟩ := Cache.openIn_nearly ⟨network, startHeight, syncFrom, capacity, path⟩ apart
      shares medium
    exact ⟨⟨.inr ⟨_, _, opened.answer.map _, rfl, rfl⟩, opened.warnings, Cache.stop?_eq found⟩,
      opened.trees, opened.answer.toOption_eq.symm⟩

end Session

section Others

variable {path : String} {network other : Network} {one two changed : Tree}
  (differ : other ≠ network) (framed : Framed (Owned (settingsOf path other).home)
    (fun place => OnTheWay (settingsOf path other).directory place ∧ two.find? place = none) two changed)

include differ framed

theorem trails_spared {settled : Path → Prop}
    (near : ∀ place, OnTheWay (settingsOf path other).directory place →
      Near settled (settingsOf path other).home place)
    (free : ∀ place, settled place → ¬ Owned (settingsOf path other).home place)
    (trails : Trails settled (settingsOf path network).home one two) :
    Trails settled (settingsOf path network).home one changed := by
  refine trails.framed framed ?own ?way
  case own =>
    rintro place ((above | there) | below)
    · exact owned_apart differ (.inl above)
    · exact free place there
    · exact owned_apart differ (.inr below)
  case way =>
    rintro place below ⟨on, missing⟩
    rcases near place on with above | there
    · exact differ (home_above (below.trans above)).symm
    · have directory := (trails.settled place there).2
      rw [missing] at directory
      contradiction

theorem shares_spared {networks : List Network} (clear : Clear path networks)
    (asked : network ∈ networks) (listed : other ∈ networks)
    (shares : Shares (OnTheWay (settingsOf path network).directory) (owns (settingsOf path network).home)
      one two) :
    Shares (OnTheWay (settingsOf path network).directory) (owns (settingsOf path network).home) one
      changed := by
  refine shares.framed framed ?own ?way
  case own =>
    intro place within
    refine decide_eq_false fun owned => ?_
    rcases within with theirs | ⟨on, -⟩
    · have below : (settingsOf path network).home <+: place :=
        List.isPrefixOf_iff_prefix.mp (Cache.isPrefixOf_of_owned owned)
      exact owned_apart differ (.inr below) theirs
    · exact clear place ⟨other, listed, on⟩ ⟨network, asked, owned⟩
  case way => exact fun place on theirs => clear place ⟨network, asked, on⟩ ⟨other, listed, theirs⟩

end Others

namespace Shared

open Session (Paired)

section Start

variable {path : String} (requests : List (Network × Request))

theorem responses_trails {tree : Tree} (wellFormed : tree.WellFormed)
    (firm : Firm tree path (requests.map Prod.fst)) (network : Network) :
    let alone := Session.responses path network ⟨tree, none⟩ (forNetwork network requests)
    let ended := (start tree).responses path requests
    alone.2 = forNetwork network ended.2 ∧
      Paired path network (Trails (Settled tree path (requests.map Prod.fst))
        (settingsOf path network).home) alone.1 (ended.1.session network) := by
  let settled := Settled tree path (requests.map Prod.fst)
  have free : ∀ other ∈ requests.map Prod.fst, ∀ place, settled place →
      ¬ Owned (settingsOf path other).home place :=
    fun other listed place there owned => there.2 ⟨other, listed, owned⟩
  have begins : Paired path network (Trails settled (settingsOf path network).home) ⟨tree, none⟩
      ((start tree).session network) :=
    ⟨Tree.trails_self wellFormed (fun _ there => there.1) _, rfl, fun _ held => by contradiction⟩
  have related := responses_related (start_placed path tree) requests
    (fun _ => List.mem_map_of_mem)
    (fun asked => Session.lockstep_trails (firm network asked) (free network asked))
    (fun other listed differ _ _ _ trails framed =>
      trails_spared differ framed (firm other listed) (free other listed) trails) begins
  rwa [List.forall₂_eq_eq_eq] at related

theorem responses_shares (tree : Tree) (clear : Clear path (requests.map Prod.fst))
    {network : Network} (asked : network ∈ requests.map Prod.fst) :
    let alone := Session.responses path network ⟨tree, none⟩ (forNetwork network requests)
    let ended := (start tree).responses path requests
    List.Forall₂ Response.Akin alone.2 (forNetwork network ended.2) ∧
      Paired path network (Shares (OnTheWay (settingsOf path network).directory)
        (owns (settingsOf path network).home)) alone.1 (ended.1.session network) := by
  have apart : Apart (settingsOf path network) :=
    fun place on owned => clear place ⟨network, asked, on⟩ ⟨network, asked, owned⟩
  have begins : Paired path network (Shares (OnTheWay (settingsOf path network).directory)
      (owns (settingsOf path network).home)) ⟨tree, none⟩ ((start tree).session network) :=
    ⟨⟨rfl, fun _ _ => Iff.rfl⟩, rfl, fun _ held => by contradiction⟩
  exact responses_related (start_placed path tree) requests (fun _ => List.mem_map_of_mem)
    (fun _ => Session.lockstep_shares apart)
    (fun other listed differ _ _ _ shares framed =>
      shares_spared differ framed clear asked listed shares) begins

end Start

/-- Apart from directories on the way, a run of requests changes nothing but the files of its own
networks; each network is told, holds and leaves what it does where it is alone, if the way is firm,
as it is where no dots lead up. If the way is only clear, that holds of the files of its cache, and a
file in the way may be met otherwise. -/
theorem networks_apart (tree : Tree) (path : String) (requests : List (Network × Request)) :
    let networks := requests.map Prod.fst
    let ended := (start tree).responses path requests
    (∀ place, ¬ OwnedBy path networks place →
      ended.1.tree.find? place = tree.find? place ∨
        (OnWayTo path networks place ∧ tree.find? place = none ∧
          ended.1.tree.find? place = some .directory)) ∧
    (".." ∉ Path.componentsAfter [] path.toList → Firm tree path networks) ∧
    (tree.WellFormed → Firm tree path networks → ∀ network,
      let alone := Session.responses path network ⟨tree, none⟩ (forNetwork network requests)
      alone.2 = forNetwork network ended.2 ∧ ended.1.caches network = alone.1.cache ∧
        ∀ place, (settingsOf path network).home <+: place →
          ended.1.tree.find? place = alone.1.tree.find? place) ∧
    (Clear path networks → ∀ network ∈ networks,
      let alone := Session.responses path network ⟨tree, none⟩ (forNetwork network requests)
      List.Forall₂ Response.Akin alone.2 (forNetwork network ended.2) ∧
        ended.1.caches network = alone.1.cache ∧
        ∀ place, Owned (settingsOf path network).home place →
          ended.1.tree.find? place = alone.1.tree.find? place) := by
  refine ⟨fun place outside => ?frame, firm_of_plain tree _, fun wellFormed firm network => ?alone,
    fun clear network asked => ?beside⟩
  case frame =>
    have framed := responses_framed (start_placed path tree) requests
    by_cases on : OnWayTo path (requests.map Prod.fst) place
    · exact (framed.made place outside).imp_right fun made => ⟨on, made⟩
    · exact .inl (framed.spares.find?_eq fun within => within.elim outside on)
  case alone =>
    obtain ⟨told, paired⟩ := responses_trails requests wellFormed firm network
    exact ⟨told, paired.cache, fun place within =>
      Tree.find?_of_below paired.trees.below.symm within⟩
  case beside =>
    obtain ⟨told, paired⟩ := responses_shares requests tree clear asked
    exact ⟨told, paired.cache, fun place owned =>
      Tree.find?_of_kept paired.trees.own.symm (owns_iff.mpr owned)⟩

def sampleOpening (startHeight : Nat) : Request :=
  .opening startHeight none none .perfect

def sampleTree : Tree :=
  ⟨[(["up"], .directory), (["cache"], .directory), (["cache", "notes"], .file [1])]⟩

theorem not_owned_sample {path : String} (spelled : Path.spelled path = ["cache"])
    (networks : List Network) {place : Path} (short : place.length ≤ 2) : ¬ OwnedBy path networks place := by
  rintro ⟨network, -, name, -, within⟩
  have longer := within.length_le
  rw [home_eq, spelled] at longer
  simp only [List.length_append, List.length_cons, List.length_nil] at longer
  omega

theorem firm_sample (networks : List Network) : Firm sampleTree "up/../cache" networks := by
  rintro network - place ⟨front, begins, rfl⟩
  have names : (Path.componentsAfter [] (settingsOf "up/../cache" network).directory.toList).filter
      (fun name => !Path.stays name) = ["up", "..", "cache", network.tag] := by
    cases network <;> decide
  have settled : Settled sampleTree "up/../cache" networks ["up"] :=
    ⟨by decide, not_owned_sample rfl networks (by decide)⟩
  rw [home_eq, show Path.spelled "up/../cache" = ["cache"] from rfl]
  simp only [names, List.prefix_cons_iff, List.prefix_nil] at begins
  obtain rfl | ⟨_, rfl, rfl | ⟨_, rfl, rfl | ⟨_, rfl, rfl | ⟨_, rfl, rfl⟩⟩⟩⟩ := begins
  · exact .inl List.nil_prefix
  · exact .inr settled
  · exact .inl List.nil_prefix
  · exact .inl ⟨[network.tag], rfl⟩
  · cases network <;> exact .inl List.prefix_rfl

theorem clear_sample (networks : List Network) : Clear "new/../cache" networks := by
  rintro place ⟨network, -, front, begins, rfl⟩
  have names : (Path.componentsAfter [] (settingsOf "new/../cache" network).directory.toList).filter
      (fun name => !Path.stays name) = ["new", "..", "cache", network.tag] := by
    cases network <;> decide
  have short : (front.foldl Path.step []).length ≤ 2 := by
    simp only [names, List.prefix_cons_iff, List.prefix_nil] at begins
    obtain rfl | ⟨_, rfl, rfl | ⟨_, rfl, rfl | ⟨_, rfl, rfl | ⟨_, rfl, rfl⟩⟩⟩⟩ := begins <;>
      cases network <;> decide
  exact not_owned_sample rfl networks short

theorem networks_apart_sample :
    let requests := [(.mainnet, sampleOpening 0), (.testnet, sampleOpening 5), (.mainnet, .close),
      (.testnet, .ask .firstHeight)]
    let ended := (start sampleTree).responses "up/../cache" requests
    sampleTree.WellFormed ∧ Firm sampleTree "up/../cache" (requests.map Prod.fst) ∧
      Firm sampleTree "cache" (requests.map Prod.fst) ∧
      ended.1.tree.find? ["cache", "notes"] = some (.file [1]) ∧
      forNetwork .testnet ended.2 = [⟨.done (.ok ()), [], none⟩, ⟨.reply (.height 5), [], none⟩] ∧
      Clear "new/../cache" (requests.map Prod.fst) ∧
      ((start sampleTree).responses "new/../cache" requests).1.caches .testnet =
        (Session.responses "new/../cache" .testnet ⟨sampleTree, none⟩
          (forNetwork .testnet requests)).1.cache := by
  intro requests ended
  have wellFormed : sampleTree.WellFormed := Tree.wellFormed_of_entries (by decide)
  have firm := firm_sample (requests.map Prod.fst)
  have apart := networks_apart sampleTree "up/../cache" requests
  have clear := clear_sample (requests.map Prod.fst)
  refine ⟨wellFormed, firm, ?plain, ?notes, ?answers, clear, ?held⟩
  case plain => exact (networks_apart sampleTree "cache" requests).2.1 (by decide)
  case notes =>
    have outside := not_owned_sample (show Path.spelled "up/../cache" = ["cache"] from rfl)
      (requests.map Prod.fst) (show ["cache", "notes"].length ≤ 2 by decide)
    exact (apart.1 _ outside).resolve_right fun made => nomatch made.2.1
  case answers =>
    have alone : (Session.responses "up/../cache" .testnet ⟨sampleTree, none⟩
        (forNetwork .testnet requests)).2 = [⟨.done (.ok ()), [], none⟩, ⟨.reply (.height 5), [], none⟩] := by
      decide +kernel
    rw [← alone]
    exact (apart.2.2.1 wellFormed firm .testnet).1.symm
  case held =>
    have barred := (networks_apart sampleTree "new/../cache" requests).2.2.2 clear .testnet
    exact (barred (by decide)).2.1

-- The path leads up again from a directory that is only there once a cache was opened. Then a file in
-- the way is found by looking, and not by making a directory in its place.
theorem barred_by_another :
    let tree : Tree := ⟨[(["file"], .file [0])]⟩
    let shared := (start tree).responses "new/../file"
      [(.mainnet, sampleOpening 0), (.testnet, sampleOpening 0)]
    let alone := Session.responses "new/../file" .testnet ⟨tree, none⟩ [sampleOpening 0]
    tree.WellFormed ∧
      forNetwork .testnet shared.2 = [⟨.done (.error (.os .notADirectory)), [], none⟩] ∧
      alone.2 = [⟨.done (.error (.os .alreadyExists)), [], none⟩] := by
  refine ⟨Tree.wellFormed_of_entries (by decide), rfl, rfl⟩

end Shared

end CompactChain
