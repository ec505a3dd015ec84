import UsersService.Uuid
import UsersService.User
import UsersService.Cache.Keys
import UsersService.Store.Table
import UsersService.Events
import UsersService.World
import UsersService.Store.UserRepository
import UsersService.Cache.Decorator
import UsersService.Cache.Coherence
import UsersService.Service
import UsersService.Concurrency
import UsersService.Service.Outcome
import UsersService.Service.Update
import UsersService.Service.Runs
import UsersService.Service.Answers
import UsersService.Service.Interleaving
import UsersService.Service.SignUps
import UsersService.Service.Announcements
import UsersService.Service.Deletes
import UsersService.Service.Provenance
import UsersService.Service.Timestamps
import UsersService.Service.Progress
import UsersService.List.Sql
import UsersService.List.Query
import UsersService.List.ListUsers
import UsersService.List.Pages
import UsersService.Api.List
import UsersService.Api.Errors
import UsersService.Api.Handlers
import UsersService.Api.Refusals
