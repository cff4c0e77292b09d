import DataAccess.Session.World

/-! The database that a whole program shares. -/
namespace DataAccess.Pool
variable {σ : Type}

/-- Puts a database in the place of any other. -/
def install (database : Database) : Act (World σ) Unit :=
  .modify fun w => { w with pool := some database }

/-- Installs the database that the settings name, without dialing it. -/
def connect (environment : String → Option String) (config : Config) :
    Act (World σ) Database := do
  let url ← .ofExcept (config.databaseUrl environment)
  match Address.parse? url config.pool.maxConnections with
  | none => .fail (.link "invalid address")
  | some address =>
    let database ← .step fun w =>
      let (database, w) := w.addDatabase (some address)
      (.ok database, w)
    install database
    return database

def database : Act (World σ) Database :=
  .step fun w =>
    match w.pool with
    | some database => (.ok database, w)
    | none => (.error .poolNotInitialized, w)

/-- Closes the connections of the installed database, which is removed even if that fails. -/
def shutdown [Link σ] : Act (World σ) Unit :=
  .step fun w =>
    match w.pool with
    | none => (.ok (), w)
    | some database =>
      let (answer, link) := Link.finish w.wire.link database.address
      (answer,
        { w with
          pool := none
          wire := { link, calls := w.wire.calls ++ [.finish database.address] } })

end DataAccess.Pool
