import Herald.Processor.Generate
import Herald.Processor.Recipients

/-!
Chains of processors. The processors run in order, each on what the one before it returned, and none
runs after the first failure.
-/

namespace Herald.Processor

def process (store : UserStore) (e : Event) (before : List Notification) : Processor → Processed
  | .messages => generateMessage e before
  | .forge => generateForge e before
  | .enrich => (enrichAll store e.context before).bind fun ns => .pure (.ok ns)
  | .deduplicate => (mergeDuplicates e.context before).bind fun ns => .pure (.ok ns)
  | .dropUnaddressed => (keepAddressed e.context before).bind fun ns => .pure (.ok ns)
  | .routeUnaddressed sink => .pure (.ok (before.map (route sink)))
  | .custom _ work _ => work e before

def runOn (store : UserStore) (e : Event) : List Processor → List Notification → Processed
  | [], ns => .pure (.ok ns)
  | p :: rest, ns =>
    (p.process store e ns).bind fun
      | .error failure => .pure (.error failure)
      | .ok ns =>
        (Logged.report .debug "Processor finished"
          [("processor", p.name), ("count", toString ns.length)]).bind fun _ =>
            runOn store e rest ns

def runChain (store : UserStore) (processors : List Processor) (e : Event) : Processed :=
  runOn store e processors []

end Herald.Processor
