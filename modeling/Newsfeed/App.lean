import Newsfeed.Counters.Snapshot
import Newsfeed.Listing.Headlines

namespace Newsfeed

/-- A store with the configuration and plugins under which it is read. -/
structure App where
  store : Store
  config : Config
  plugins : Plugins

namespace App

def engine (a : App) : Engine := ⟨a.store, a.plugins, a.config.limits⟩

/-- The context of an owner's requests, with the preferences that the owner has stored. A timeout of
nothing has run out from the start. -/
def contextFor (a : App) (owner : Int) (now : Time.Instant) : Except Failure Context :=
  let token : CancelToken := ⟨a.config.limits.timeoutSeconds == 0⟩
  ((a.store.under token).preferences owner a.config.defaults).map fun prefs =>
    ⟨owner, prefs, now, token⟩

end App

end Newsfeed
