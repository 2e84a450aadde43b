import SealVault.Rust
import SealVault.Matcher
import SealVault.Utf8
import SealVault.CanonicalJson
import SealVault.Serde
import SealVault.Device
import SealVault.Backup.Version
import SealVault.Backup.FileName
import SealVault.Backup.Metadata
import SealVault.Backup.LastUploaded
import SealVault.Db.Entity
import SealVault.Db.Dapp
import SealVault.Db.DappQueries
import SealVault.Db.AccountPicture
import SealVault.DevServer
