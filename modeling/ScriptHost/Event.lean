/-!
# Built-in events

The events that the game server reports.  Scripts name them in snake case, with exactly that
spelling: `Event.ofName?` and `Event.name` are inverse to each other.
-/

namespace ScriptHost

/-- An event that functions can be bound to. -/
inductive Event where
  -- the server
  | tick
  | tickNether
  | tickEnder
  -- a player comes and goes
  | playerConnects
  | playerDisconnects
  | playerDies
  | playerRespawns
  | playerChangesDimension
  -- a player moves
  | playerJumps
  | playerDeploysElytra
  | playerWakesUp
  | playerRides
  | playerStartsSneaking
  | playerStopsSneaking
  | playerStartsSprinting
  | playerStopsSprinting
  -- a player acts
  | playerUsesItem
  | playerReleasesItem
  | playerFinishesUsingItem
  | playerClicksBlock
  | playerRightClicksBlock
  | playerBreaksBlock
  | playerPlacesBlock
  | playerInteractsWithEntity
  | playerAttacksEntity
  | playerTakesDamage
  | playerDealsDamage
  | playerDropsItem
  | playerDropsStack
  | playerPicksUpItem
  | playerSwitchesSlot
  | playerSwapsHands
  | playerChoosesRecipe
  | statistic
deriving DecidableEq, Repr

namespace Event

/-- Every event, in the order of their declaration. -/
def all : List Event :=
  [tick, tickNether, tickEnder, playerConnects, playerDisconnects, playerDies, playerRespawns,
    playerChangesDimension, playerJumps, playerDeploysElytra, playerWakesUp, playerRides,
    playerStartsSneaking, playerStopsSneaking, playerStartsSprinting, playerStopsSprinting,
    playerUsesItem, playerReleasesItem, playerFinishesUsingItem, playerClicksBlock,
    playerRightClicksBlock, playerBreaksBlock, playerPlacesBlock, playerInteractsWithEntity,
    playerAttacksEntity, playerTakesDamage, playerDealsDamage, playerDropsItem, playerDropsStack,
    playerPicksUpItem, playerSwitchesSlot, playerSwapsHands, playerChoosesRecipe, statistic]

/-- The name of an event in scripts. -/
def name : Event → String
  | tick => "tick"
  | tickNether => "tick_nether"
  | tickEnder => "tick_ender"
  | playerConnects => "player_connects"
  | playerDisconnects => "player_disconnects"
  | playerDies => "player_dies"
  | playerRespawns => "player_respawns"
  | playerChangesDimension => "player_changes_dimension"
  | playerJumps => "player_jumps"
  | playerDeploysElytra => "player_deploys_elytra"
  | playerWakesUp => "player_wakes_up"
  | playerRides => "player_rides"
  | playerStartsSneaking => "player_starts_sneaking"
  | playerStopsSneaking => "player_stops_sneaking"
  | playerStartsSprinting => "player_starts_sprinting"
  | playerStopsSprinting => "player_stops_sprinting"
  | playerUsesItem => "player_uses_item"
  | playerReleasesItem => "player_releases_item"
  | playerFinishesUsingItem => "player_finishes_using_item"
  | playerClicksBlock => "player_clicks_block"
  | playerRightClicksBlock => "player_right_clicks_block"
  | playerBreaksBlock => "player_breaks_block"
  | playerPlacesBlock => "player_places_block"
  | playerInteractsWithEntity => "player_interacts_with_entity"
  | playerAttacksEntity => "player_attacks_entity"
  | playerTakesDamage => "player_takes_damage"
  | playerDealsDamage => "player_deals_damage"
  | playerDropsItem => "player_drops_item"
  | playerDropsStack => "player_drops_stack"
  | playerPicksUpItem => "player_picks_up_item"
  | playerSwitchesSlot => "player_switches_slot"
  | playerSwapsHands => "player_swaps_hands"
  | playerChoosesRecipe => "player_chooses_recipe"
  | statistic => "statistic"

/-- The event with the given name. -/
def ofName? (name : String) : Option Event := all.find? fun e => e.name == name

theorem mem_all (e : Event) : e ∈ all := by cases e <;> decide

/-- Every event is found under its own name. -/
theorem ofName?_name (e : Event) : ofName? e.name = some e := by cases e <;> decide

/-- The event found under a name has that name. -/
theorem name_of_ofName? {name : String} {e : Event} (h : ofName? name = some e) :
    e.name = name := by
  have := List.find?_some h
  simpa using this

end Event

end ScriptHost
