import Backpressure.Settings.Environment
import Backpressure.Text.Percent

/-!
# Settings of the database

* `DatabaseSettings` : the server, the account and the driver, or a whole address;
* `DatabaseSettings.ofEnvironment` : reads them from variables `DB_…`;
* `DatabaseSettings.url` : the address to connect to. The attributes of the connection are one field of a form.
-/

namespace Backpressure
open Text

/-- How to reach the database. -/
structure DatabaseSettings where
  host : String
  portNumber : Int
  user : String
  password : String
  name : String
  driver : String
  /-- An address that stands for all the rest. -/
  address : Option String
  deriving DecidableEq, Repr

namespace DatabaseSettings

/-- The settings that an environment gives. An empty address counts as none. -/
def ofEnvironment (e : Environment) : Except Error DatabaseSettings := do
  return {
    host := e.text "DB_HOST" "localhost"
    portNumber := ← e.integer "DB_PORT" 1433
    user := e.text "DB_USER" "sa"
    password := e.text "DB_PASSWORD" ""
    name := e.text "DB_NAME" "flow_status_history"
    driver := e.text "ODBC_DRIVER" "ODBC Driver 18 for SQL Server"
    address := (e.get? "ANALYTICS_DATABASE_URL").filter (· != "") }

def attributes (s : DatabaseSettings) : String :=
  "DRIVER=\x7b" ++ s.driver ++ "\x7d;SERVER=" ++ s.host ++ "," ++ toString s.portNumber ++ ";DATABASE=" ++ s.name ++
    ";UID=" ++ s.user ++ ";PWD=" ++ s.password ++ ";TrustServerCertificate=yes;"

def url (s : DatabaseSettings) : String :=
  match s.address with
  | some address => address
  | none => "mssql+pyodbc:///?odbc_connect=" ++ String.ofList (Percent.encodeForm s.attributes.toList)

end DatabaseSettings

end Backpressure
